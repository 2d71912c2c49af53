import Changelog.Markdown.Parser
import Changelog.Proofs.Document.Spans
import Changelog.Proofs.History.Scanning

/-!
# Reading over stored markup

The readers look at the spans on the shelf, and never at the stash beneath them: a piece of running
text stores its markup and puts the mark out.  So what a document becomes is settled by the count of
the stash, as `steady_readDocument` says, and `Parser.steady_read` carries this over to a source.
-/

namespace Changelog

open Holder

instance : Holder Shelf :=
  ⟨fun shelf stash => { shelf with stash }⟩

namespace Shelf

variable (shelf : Shelf) (stash : Stash)

theorem withStash_find? (digits : Text) :
    (withStash shelf stash).find? digits = shelf.find? digits :=
  rfl

theorem withStash_replaceMarks (image : Span → Text) (cs : Text) :
    (withStash shelf stash).replaceMarks image cs = shelf.replaceMarks image cs :=
  rfl

theorem withStash_written (depth : Nat) (cs : Text) :
    (withStash shelf stash).written depth cs = shelf.written depth cs := by
  induction depth generalizing cs with
  | zero => rfl
  | succ depth ih => simp only [written, withStash_replaceMarks, ih]

end Shelf

namespace Span

theorem withStash_restore (shelf : Shelf) (stash : Stash) :
    restore (withStash shelf stash) = restore shelf := by
  have hspans : (withStash shelf stash).spans = shelf.spans := rfl
  funext cs
  unfold restore
  rw [Shelf.withStash_written, hspans]

theorem withStash_readers (references : References) (shelf : Shelf) (stash : Stash) :
    readers references (withStash shelf stash) = readers references shelf := by
  have hmarkup : readMarkup (withStash shelf stash) = readMarkup shelf := by
    unfold readMarkup
    rw [withStash_restore]
  have hreference :
      readCharacterReference (withStash shelf stash) = readCharacterReference shelf := by
    unfold readCharacterReference
    rw [withStash_restore]
  simp only [readers, hmarkup, hreference]
  rfl

theorem withStash_emphasis (parts : List Part) (shelf : Shelf) (stash : Stash) :
    Emphasis.shelve parts (withStash shelf stash) =
      withStash (Emphasis.shelve parts shelf) stash := by
  induction parts generalizing shelf with
  | nil => rfl
  | cons part rest ih =>
    cases part with
    | plain cs =>
      simp only [Emphasis.shelve, ih]
      rfl
    | element d => 
      have hput : (withStash shelf stash).put (.element d) =
          withStash (shelf.put (.element d)) stash := rfl
      simp only [Emphasis.shelve, hput, withStash_snd, withStash_fst, ih]
      rfl

/-! ### Texts and spans -/

/-- Texts are read steadily, whatever the turn and the shelf. -/
def ReadText.IsSteady (read : ReadText) : Prop :=
  ∀ turn cs (shelf : Shelf), Steady fun stash => read turn cs (withStash shelf stash)

theorem steady_readPiece {read : Text → Shelf → Text × Shelf}
    (hr : ∀ cs (shelf : Shelf), Steady fun stash => read cs (withStash shelf stash))
    (piece : Option Piece) (shelf : Shelf) :
    Steady fun stash => readPiece read piece (withStash shelf stash) := by
  cases piece with
  | none => exact .idle ((none : Option Piece), shelf)
  | some p =>
    exact .ite (fun _ => .idle (some p, shelf)) fun _ =>
      (hr p.chars shelf).map fun cs => some (Piece.running cs)

theorem steady_readChildren {read : ReadText} (hr : read.IsSteady) (turn : Nat) (ds : List Draft)
    (shelf : Shelf) : Steady fun stash => readChildren read turn ds (withStash shelf stash) := by
  induction ds generalizing shelf with
  | nil => exact .idle (([] : List Draft), shelf)
  | cons d ds ih =>
    let afterTail (text : Option Piece) (tail : Option Piece × Shelf) : List Draft × Shelf :=
      let others := readChildren read turn ds tail.2
      ({ d with text := text, tail := tail.1 } :: others.1, others.2)
    let afterText (text : Option Piece × Shelf) : List Draft × Shelf :=
      afterTail text.1 (readPiece (read turn) d.tail text.2)
    refine (steady_readPiece (hr (turn + 1)) d.text shelf).bind (f := afterText) fun text => ?_
    refine (steady_readPiece (hr turn) d.tail text.2).bind (f := afterTail text.1) fun tail => ?_
    exact (ih tail.2).map ({ d with text := text.1, tail := tail.1 } :: ·)

theorem steady_readSpan {read : ReadText} (hr : read.IsSteady) (turn : Nat) (d : Draft)
    (shelf : Shelf) : Steady fun stash => readSpan read turn d (withStash shelf stash) := by
  unfold readSpan
  split
  · exact .idle (d, shelf)
  · let afterText (text : Option Piece × Shelf) : Draft × Shelf :=
      let children := readChildren read turn d.children text.2
      ({ d with text := text.1, children := children.1 }, children.2)
    refine (steady_readPiece (hr (turn + 1)) d.text shelf).bind (f := afterText) fun text => ?_
    exact (steady_readChildren hr turn d.children text.2).map
      fun children => { d with text := text.1, children := children }

theorem steady_shelve {read : ReadText} (hr : read.IsSteady) (turn : Nat) (value : Value)
    (shelf : Shelf) : Steady fun stash => shelve read turn value (withStash shelf stash) := by
  cases value with
  | element d =>
    exact (steady_readSpan hr turn d shelf).bind (f := fun r => r.2.put (.element r.1))
      fun r => .idle (r.2.put (.element r.1))
  | text chars => exact .idle (shelf.put (.text chars))
  | markup chars => exact .store chars fun n => shelf.put (.text (Mark.raw n))

theorem steady_readWithin (references : References) (fuel : Nat) :
    (readWithin references fuel).IsSteady := by
  induction fuel with
  | zero => exact fun _ cs shelf => .idle (cs, shelf)
  | succ fuel ih =>
    intro turn cs shelf
    simp only [readWithin, withStash_readers]
    cases (readers references shelf)[turn]? with
    | none =>
      exact (Steady.idle (Emphasis.read cs shelf)).congr fun stash =>
        withStash_emphasis (Emphasis.partsOf cs) shelf stash
    | some reader =>
      dsimp only
      cases search reader cs with
      | none => exact ih (turn + 1) cs shelf
      | some hit =>
        let follow (mark : Text × Shelf) : Text × Shelf :=
          readWithin references fuel turn (hit.before.reverse ++ mark.1 ++ hit.rest) mark.2
        exact (steady_shelve ih turn hit.value shelf).bind (f := follow)
          fun mark => ih turn (hit.before.reverse ++ mark.1 ++ hit.rest) mark.2

theorem steady_readText (references : References) (cs : Text) (shelf : Shelf) :
    Steady fun stash => readText references cs (withStash shelf stash) :=
  steady_readWithin references _ 0 cs shelf

/-! ### The whole document -/

theorem withStash_resolveWithin (shelf : Shelf) (stash : Stash) (fuel : Nat) :
    resolveWithin (withStash shelf stash) fuel = resolveWithin shelf fuel := by
  induction fuel with
  | zero => rfl
  | succ fuel ih =>
    funext verbatim r cs
    simp only [resolveWithin, Shelf.withStash_find?, ih]

theorem withStash_resolvePiece (shelf : Shelf) (stash : Stash) :
    resolvePiece (withStash shelf stash) = resolvePiece shelf := by
  have hspans : (withStash shelf stash).spans = shelf.spans := rfl
  funext piece
  unfold resolvePiece
  rw [withStash_resolveWithin, hspans]

/-- The text of a child read, with the elements found in it. -/
def scanText (references : References) (d : Draft) (shelf : Shelf) : Draft × List Draft × Shelf :=
  match d.text with
  | some p =>
    if p.verbatim || p.chars.isEmpty then (d, [], shelf)
    else
      let read := readText references p.chars shelf
      let r := resolvePiece read.2 (.running read.1)
      ({ d with text := r.lead }, r.elements, read.2)
  | none => (d, [], shelf)

/-- The tail of a child read, with the elements found in it. -/
def scanTail (references : References) (d : Draft) (shelf : Shelf) : Draft × List Draft × Shelf :=
  match d.tail with
  | some p =>
    if p.chars.isEmpty then (d, [], shelf)
    else
      let read := readPiece (readText references) (some p) shelf
      let r := resolvePiece read.2 (read.1.getD p)
      ({ d with tail := r.lead }, r.elements, read.2)
  | none => (d, [], shelf)

theorem scanChildren_cons (references : References) (fuel : Nat) (d : Draft) (again : Bool)
    (ds : List (Draft × Bool)) (shelf : Shelf) :
    scanChildren references (fuel + 1) ((d, again) :: ds) shelf =
      let own := scanText references d shelf
      let tail := scanTail references own.1 own.2.2
      let others := scanChildren references fuel
        (tail.2.1.map (fun e => (e, false)) ++ ds) tail.2.2
      (⟨tail.1, own.2.1, again⟩ :: others.1, others.2) :=
  rfl

theorem steady_scanText (references : References) (d : Draft) (shelf : Shelf) :
    Steady fun stash => scanText references d (withStash shelf stash) := by
  unfold scanText
  split
  · next p _ =>
    refine .ite (fun _ => .idle (d, ([] : List Draft), shelf)) fun _ => ?_
    let follow (read : Text × Shelf) : Draft × List Draft × Shelf :=
      let r := resolvePiece read.2 (.running read.1)
      ({ d with text := r.lead }, r.elements, read.2)
    refine (steady_readText references p.chars shelf).bind (f := follow) fun read => ?_
    simp only [follow, withStash_snd, withStash_resolvePiece]
    exact .idle (follow read)
  · exact .idle (d, ([] : List Draft), shelf)

theorem steady_scanTail (references : References) (d : Draft) (shelf : Shelf) :
    Steady fun stash => scanTail references d (withStash shelf stash) := by
  unfold scanTail
  split
  · next p _ =>
    refine .ite (fun _ => .idle (d, ([] : List Draft), shelf)) fun _ => ?_
    let follow (read : Option Piece × Shelf) : Draft × List Draft × Shelf :=
      let r := resolvePiece read.2 (read.1.getD p)
      ({ d with tail := r.lead }, r.elements, read.2)
    refine (steady_readPiece (steady_readText references) (some p) shelf).bind (f := follow)
      fun read => ?_
    simp only [follow, withStash_snd, withStash_resolvePiece]
    exact .idle (follow read)
  · exact .idle (d, ([] : List Draft), shelf)

theorem steady_scanChildren (references : References) (fuel : Nat) (ds : List (Draft × Bool))
    (shelf : Shelf) :
    Steady fun stash => scanChildren references fuel ds (withStash shelf stash) := by
  induction fuel generalizing ds shelf with
  | zero => exact .idle (ds.map fun d => (⟨d.1, [], d.2⟩ : Scanned), shelf)
  | succ fuel ih =>
    cases ds with
    | nil => exact .idle (([] : List Scanned), shelf)
    | cons first ds =>
      obtain ⟨d, again⟩ := first
      simp only [scanChildren_cons]
      let afterTail (found : List Draft) (tail : Draft × List Draft × Shelf) :
          List Scanned × Shelf :=
        let others := scanChildren references fuel
          (tail.2.1.map (fun e => (e, false)) ++ ds) tail.2.2
        (⟨tail.1, found, again⟩ :: others.1, others.2)
      let afterText (own : Draft × List Draft × Shelf) : List Scanned × Shelf :=
        afterTail own.2.1 (scanTail references own.1 own.2.2)
      refine (steady_scanText references d shelf).bind (f := afterText) fun own => ?_
      refine (steady_scanTail references own.1 own.2.2).bind (f := afterTail own.2.1)
        fun tail => ?_
      exact (ih (tail.2.1.map (fun e => (e, false)) ++ ds) tail.2.2).map
        ((⟨tail.1, own.2.1, again⟩ : Scanned) :: ·)

theorem steady_visitReverse {α β : Type} {visit : α → Shelf → β × Shelf}
    (hv : ∀ a (shelf : Shelf), Steady fun stash => visit a (withStash shelf stash)) (as : List α)
    (shelf : Shelf) : Steady fun stash => visitReverse visit as (withStash shelf stash) := by
  induction as with
  | nil => exact .idle (([] : List β), shelf)
  | cons a as ih =>
    let follow (others : List β × Shelf) : List β × Shelf :=
      let first := visit a others.2
      (first.1 :: others.1, first.2)
    exact ih.bind (f := follow) fun others => (hv a others.2).map (· :: others.1)

theorem steady_visitChildren (references : References) (fuel : Nat) (ds : List (Draft × Bool))
    (shelf : Shelf) :
    Steady fun stash => visitChildren references fuel ds (withStash shelf stash) := by
  induction fuel generalizing ds shelf with
  | zero => exact .idle (ds.map (·.1), shelf)
  | succ fuel ih =>
    have hvisit (d : Draft) (shelf : Shelf) :
        Steady fun stash => visit references fuel d (withStash shelf stash) :=
      (ih _ shelf).map fun children => { d with children := children }
    have hscanned (s : Scanned) (shelf : Shelf) :
        Steady fun stash => visitScanned references fuel s (withStash shelf stash) := by
      refine .ite (fun _ => ?_) fun _ => ?_
      · exact (steady_visitReverse hvisit s.found shelf).map
          fun children => ({ s.element with children := children }, s.again)
      · exact (ih _ shelf).map fun children => ({ s.element with children := children }, s.again)
    have hagain (d : Draft × Bool) (shelf : Shelf) :
        Steady fun stash => visitAgain references fuel d (withStash shelf stash) :=
      .ite (fun _ => hvisit d.1 shelf) fun _ => .idle (d.1, shelf)
    obtain ⟨bound, hsucc⟩ := visitChildren_succ references fuel ds
    simp only [hsucc]
    let afterVisits (visited : List (Draft × Bool) × Shelf) : List Draft × Shelf :=
      visitReverse (visitAgain references fuel) visited.1 visited.2
    let afterScan (scanned : List Scanned × Shelf) : List Draft × Shelf :=
      afterVisits (visitReverse (visitScanned references fuel) scanned.1 scanned.2)
    refine (steady_scanChildren references bound ds shelf).bind (f := afterScan)
      fun scanned => ?_
    refine (steady_visitReverse hscanned scanned.1 scanned.2).bind (f := afterVisits)
      fun visited => ?_
    exact steady_visitReverse hagain visited.1 visited.2

/-- Reading the running text of a document is steady. -/
theorem steady_readDocument (references : References) (document : Draft) :
    Steady fun stash => readDocument references document stash := by
  let follow (r : List Draft × Shelf) : Draft × Stash :=
    ({ document with children := r.1 }, r.2.stash)
  have hvisit := steady_visitChildren references (weight document)
    (document.children.map fun d => (d, false)) ⟨#[], Stash.empty⟩
  exact hvisit.bind (f := follow) fun r => .idle (follow r)

end Span

/-! ### Sources -/

instance : Holder Parser :=
  ⟨fun parser stash => { parser with stash }⟩

namespace Parser

theorem steady_store (source : Text) : Steady fun stash => store stash source := by
  let follow (fenced : Text × Stash) : Text × Stash := Raw.store fenced.2 fenced.1
  have hfence := Fence.steady_store source
  exact hfence.bind (f := follow) fun fenced => Raw.steady_store fenced.1

/-- A page of blocks with its running text read. -/
def readPage (page : Blocks.Page) (stash : Stash) : Tree × Parser :=
  let document := Span.readDocument page.references page.parent stash
  (document.1.finish, ⟨page.references, document.2⟩)

theorem steady_readPage (page : Blocks.Page) : Steady fun stash => readPage page stash := by
  let follow (document : Draft × Stash) : Tree × Parser :=
    (document.1.finish, ⟨page.references, document.2⟩)
  have hdocument := Span.steady_readDocument page.references page.parent
  exact hdocument.bind (f := follow) fun document => .idle (follow document)

/-- What a source becomes, and the link targets after it, are settled by the link targets before it
and the count of the stash; the count does not matter either where nothing is stored. -/
theorem steady_read (references : References) (source : Text) :
    Steady fun stash => Parser.read ⟨references, stash⟩ source := by
  let follow (stored : Text × Stash) : Tree × Parser :=
    readPage (Blocks.read references stored.1) stored.2
  have hstore := steady_store (Source.clean source)
  exact hstore.bind (f := follow) fun stored =>
    steady_readPage (Blocks.read references stored.1)

end Parser

end Changelog
