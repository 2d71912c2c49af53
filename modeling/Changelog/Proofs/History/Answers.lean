import Changelog.Proofs.History.Lookups
import Changelog.Proofs.History.Reading

/-!
# The answers of one parser

A parser that has read sources before answers like a fresh one with its link targets, whose marks are
numbered from its count on: what it stored never shows.  The count itself shows in no answer for a
source that stores nothing, and a reset forgets it.
-/

namespace Changelog

open Text Element

namespace Parser

/-- The page of a tree that was read, with the markup stored so far. -/
def finished (stash : Stash) (tree : Tree) : Except DecorateError Text :=
  match decorate stash tree with
  | (_, some e) => .error e
  | (decorated, none) => .ok (page stash decorated)

theorem render_fst (parser : Parser) (source : Text) : (parser.render source).1 =
    if Text.isBlank source then .ok []
    else finished (parser.read source).2.stash (parser.read source).1 := by
  unfold render finished
  split
  · rfl
  · dsimp only
    cases decorate (parser.read source).2.stash (parser.read source).1 with
    | mk decorated failure =>
      cases failure with
      | none => rfl
      | some e => rfl

theorem render_snd (parser : Parser) (source : Text) : (parser.render source).2 =
    if Text.isBlank source then parser else (parser.read source).2 := by
  unfold render
  split
  · rfl
  · dsimp only
    cases decorate (parser.read source).2.stash (parser.read source).1 with
    | mk decorated failure =>
      cases failure with
      | none => rfl
      | some e => rfl

theorem finished_congr {least : Nat} {s t : Stash} (h : s.Agree least t)
    (hdepth : s.entries.length = t.entries.length ∨ ∀ n, least ≤ n → t.entries[n]? = none)
    {tree : Tree} (htag : tree.tag = "div") (ht : Graded (Grade.whole least) tree) :
    finished s tree = finished t tree := by
  have hroot : headingTags.contains tree.tag = false := by
    rw [htag]
    decide
  have hdecorated := Graded.decorateTree t ht
  unfold finished
  rw [decorate_eq_decorateTree s tree hroot, decorate_eq_decorateTree t tree hroot,
    h.decorateTree ht]
  cases hd : decorateTree t tree with
  | mk decorated failure =>
    rw [hd] at hdecorated
    cases failure with
    | some e => rfl
    | none =>
      have hmarks := numbered_writeInside hdecorated.finalTree
      have hwithin : Restore.within s (s.entries.length + 1) (writeInside (finalTree decorated)) =
          Restore.within t (t.entries.length + 1) (writeInside (finalTree decorated)) := by
        rw [h.within _ hmarks]
        rcases hdepth with hlength | hnone
        · rw [hlength]
        · exact Restore.within_of_none hnone _ _ hmarks
      have hpage : page s decorated = page t decorated := by
        unfold page Restore.page
        rw [hwithin]
      exact congrArg Except.ok hpage

/-! ### Parsers that went on -/

/-- A parser with the given link targets, whose marks are numbered from `count` on, and which stored
nothing that shows. -/
def numbered (references : References) (count : Nat) : Parser :=
  ⟨references, ⟨List.replicate count [], count⟩⟩

end Parser

/-- No address and no title of a link target holds a mark. -/
def References.Unmarked (references : References) : Prop :=
  ∀ r ∈ references, Mark.opening ∉ r.2.1 ∧ ∀ title ∈ r.2.2, Mark.opening ∉ title

theorem References.Unmarked.sound {references : References} (h : references.Unmarked) (g : Grade) :
    References.Sound g references :=
  fun r hr => ⟨g.value_of_running (g.free (h r hr).1),
    fun title ht => g.value_of_running (g.free ((h r hr).2 title ht))⟩

namespace Stash

/-- There are as many entries as marks. -/
def Counted (stash : Stash) : Prop :=
  stash.entries.length = stash.count

theorem Counted.storeAll {stash : Stash} (h : stash.Counted) (markup : List Text) :
    (stash.storeAll markup).Counted := by
  unfold Counted Stash.storeAll
  rw [List.length_append, h]

theorem agree_storeAll {s t : Stash} (hs : s.Counted) (ht : t.Counted) (h : s.count = t.count)
    {markup : List Text} (hm : ∀ entry ∈ markup, Mark.Written t.count entry) :
    (s.storeAll markup).Agree t.count (t.storeAll markup) := by
  unfold Counted at hs ht
  refine ⟨fun n hn => ?_, fun n entry hn he => ?_⟩
  · unfold Stash.storeAll
    rw [List.getElem?_append_right (by omega), List.getElem?_append_right (by omega), hs, ht, h]
  · unfold Stash.storeAll at he
    rw [List.getElem?_append_right (by omega)] at he
    exact hm entry (List.mem_of_getElem? he)

end Stash

namespace Parser

/-- What a source becomes by the count of the stash: its tree, the link targets after it and the
markup that it stores. -/
structure Settles (references : References) (source : Text)
    (run : Nat → (Tree × References) × List Text) : Prop where
  read : ∀ stash, Parser.read ⟨references, stash⟩ source =
    ((run stash.count).1.1, ⟨(run stash.count).1.2, stash.storeAll (run stash.count).2⟩)
  quiet : ∀ n, (run n).2 = [] → ∀ m, run m = run n

theorem exists_settles (references : References) (source : Text) :
    ∃ run, Settles references source run := by
  obtain ⟨run, hrun, hquiet⟩ := steady_read references source
  refine ⟨fun n => (((run n).1.1, (run n).1.2.references), (run n).2), hrun, fun n hn m => ?_⟩
  have hsame := hquiet n hn m
  simp only [hsame]

theorem counted_numbered (references : References) (count : Nat) :
    (numbered references count).stash.Counted :=
  List.length_replicate

theorem onlyRaw_numbered (references : References) {least count : Nat} (h : least ≤ count) :
    (numbered references count).stash.OnlyRaw least :=
  ⟨h, fun entry he => by rw [List.eq_of_mem_replicate he]; trivial⟩

namespace Settles

variable {references : References} {source : Text} {run : Nat → (Tree × References) × List Text}

/-- All marks that are made are numbered from the count on. -/
theorem graded (h : Settles references source run) (hr : references.Unmarked) (count : Nat) :
    (run count).1.1.tag = "div" ∧ Graded (Grade.whole count) (run count).1.1 ∧
      ∀ entry ∈ (run count).2, Mark.Written count entry := by
  obtain ⟨htag, hgraded, -, hentries⟩ :=
    read_whole source (onlyRaw_numbered references (Nat.le_refl count)) (hr.sound _)
  rw [show (numbered references count).read source = _ from h.read _] at htag hgraded hentries
  exact ⟨htag, hgraded, fun entry he => hentries entry (List.mem_append_right _ he)⟩

/-- Entries that were stored before do not show. -/
theorem render_eq_numbered (h : Settles references source run) (hr : references.Unmarked)
    {stash : Stash} (hc : stash.Counted) :
    (Parser.render ⟨references, stash⟩ source).1 =
      ((numbered references stash.count).render source).1 := by
  obtain ⟨htag, hgraded, hmarkup⟩ := h.graded hr stash.count
  have hblank := counted_numbered references stash.count
  have hlength := (hc.storeAll (run stash.count).2).trans
    (hblank.storeAll (run stash.count).2).symm
  rw [render_fst, render_fst, h.read stash,
    show (numbered references stash.count).read source = _ from h.read _]
  split
  · rfl
  · exact finished_congr (Stash.agree_storeAll hc hblank rfl hmarkup) (Or.inl hlength) htag hgraded

/-- Nor does the count where nothing is stored. -/
theorem render_eq_fresh (h : Settles references source run) (hr : references.Unmarked)
    {stash : Stash} (hc : stash.Counted)
    (hs : (Parser.render ⟨references, Stash.empty⟩ source).2.stash = Stash.empty) :
    (Parser.render ⟨references, stash⟩ source).1 =
      (Parser.render ⟨references, Stash.empty⟩ source).1 := by
  obtain ⟨htag, hgraded, -⟩ := h.graded hr stash.count
  rw [render_snd] at hs
  rw [render_fst, render_fst]
  cases hb : Text.isBlank source with
  | true => rw [if_pos rfl, if_pos rfl]
  | false =>
    simp only [hb, Bool.false_eq_true, if_false, h.read] at hs ⊢
    have hstored : [] ++ (run 0).2 = [] := congrArg Stash.entries hs
    have hsame : run stash.count = run 0 := h.quiet 0 hstored stash.count
    have hstart : run Stash.empty.count = run stash.count := hsame.symm
    have hidle : (run stash.count).2 = [] := by
      rw [hsame]
      exact hstored
    rw [hstart, hidle, Stash.storeAll_nil, Stash.storeAll_nil]
    have hempty (n : Nat) : Stash.empty.entries[n]? = none := rfl
    have hagree : stash.Agree stash.count Stash.empty := by
      refine ⟨fun n hn => ?_, fun n entry _ he => ?_⟩
      · rw [hempty]
        exact List.getElem?_eq_none (le_of_eq_of_le hc hn)
      · rw [hempty] at he
        cases he
    exact finished_congr hagree (Or.inr fun n _ => hempty n) htag hgraded

end Settles

/-! ### Histories -/

/-- What is asked of a parser. -/
inductive Request
  /-- The page of a source. -/
  | convert (source : Text)
  /-- All that it remembers forgotten. -/
  | reset

/-- The parser after a request. -/
def serve (parser : Parser) : Request → Parser
  | .convert source => (parser.render source).2
  | .reset => fresh

/-- The parser after requests, one after the other. -/
def after (requests : List Request) : Parser :=
  requests.foldl serve fresh

theorem counted_serve {parser : Parser} (h : parser.stash.Counted) (request : Request) :
    (parser.serve request).stash.Counted := by
  cases request with
  | reset => exact rfl
  | convert source =>
    obtain ⟨run, hrun⟩ := exists_settles parser.references source
    show (parser.render source).2.stash.Counted
    rw [render_snd]
    split
    · exact h
    · rw [show parser.read source = _ from hrun.read parser.stash]
      exact h.storeAll _

theorem counted_after (requests : List Request) : (after requests).stash.Counted := by
  unfold after
  have hfresh : fresh.stash.Counted := rfl
  generalize fresh = parser at hfresh
  induction requests generalizing parser with
  | nil => exact hfresh
  | cons request requests ih => exact ih (parser.serve request) (counted_serve hfresh request)

theorem after_reset (requests later : List Request) :
    after (requests ++ .reset :: later) = after later := by
  unfold after
  rw [List.foldl_append]
  rfl

/-- After a reset a parser answers as if nothing had been before.  After any requests whose link
targets hold no marks it answers as a parser that stored nothing which shows, and whose marks go on
from the count; and it answers like a fresh parser with the link targets where that one stores
nothing. -/
theorem render_after (requests : List Request) (source : Text) :
    (∀ later, (after (requests ++ .reset :: later)).render source = (after later).render source) ∧
    ((after requests).references.Unmarked →
      ((after requests).render source).1 =
        ((numbered (after requests).references (after requests).stash.count).render source).1 ∧
      ((Parser.render ⟨(after requests).references, Stash.empty⟩ source).2.stash = Stash.empty →
        ((after requests).render source).1 =
          (Parser.render ⟨(after requests).references, Stash.empty⟩ source).1)) := by
  refine ⟨fun later => by rw [after_reset], fun hr => ?_⟩
  have hcounted := counted_after requests
  obtain ⟨run, hrun⟩ := exists_settles (after requests).references source
  exact ⟨hrun.render_eq_numbered hr hcounted, hrun.render_eq_fresh hr hcounted⟩

/-! ### Marks of escaped characters -/

/-- What a parser reads is what one with blank entries reads. -/
theorem read_numbered (parser : Parser) (source : Text) :
    (parser.read source).1 = ((numbered parser.references parser.stash.count).read source).1 ∧
      (parser.read source).2.references =
        ((numbered parser.references parser.stash.count).read source).2.references := by
  obtain ⟨run, hrun⟩ := exists_settles parser.references source
  rw [show parser.read source = _ from hrun.read parser.stash,
    show (numbered parser.references parser.stash.count).read source = _ from hrun.read _]
  exact ⟨rfl, rfl⟩

theorem references_serve {parser : Parser}
    (h : References.Sound (Grade.whole 0) parser.references) (request : Request) :
    References.Sound (Grade.whole 0) (parser.serve request).references := by
  cases request with
  | reset => exact List.forall_mem_nil _
  | convert source =>
    show References.Sound (Grade.whole 0) (parser.render source).2.references
    rw [render_snd]
    split
    · exact h
    · rw [(read_numbered parser source).2]
      exact references_whole source (onlyRaw_numbered _ (Nat.zero_le _)) h

theorem references_after (requests : List Request) :
    References.Sound (Grade.whole 0) (after requests).references := by
  unfold after
  have hfresh : References.Sound (Grade.whole 0) fresh.references := List.forall_mem_nil _
  generalize fresh = parser at hfresh
  induction requests generalizing parser with
  | nil => exact hfresh
  | cons request requests ih => exact ih (parser.serve request) (references_serve hfresh request)

/-- Every mark of an escaped character that is put back in a page has its character, whatever was
read before. -/
theorem settle?_after (requests : List Request) (source : Text) (stash : Stash) :
    let decorated := (decorate stash ((after requests).read source).1).1
    decorated.layout.settle? = .ok (finalTree decorated) := by
  obtain ⟨htag, hgraded, -⟩ := read_whole source
    (onlyRaw_numbered (after requests).references (Nat.zero_le (after requests).stash.count))
    (references_after requests)
  rw [← (read_numbered (after requests) source).1] at htag hgraded
  have hroot : headingTags.contains ((after requests).read source).1.tag = false := by
    rw [htag]
    decide
  rw [decorate_eq_decorateTree stash _ hroot]
  exact settle?_eq (hgraded.decorateTree stash).breakLines.tidy

/-! ### Two histories -/

/-- A rule written as markup, a link target and a heading. -/
def linkHistory : List Request :=
  [.convert "<hr>\n\n[a]: b 'c'\n\n## <b>One</b>".toList]

/-- A link to the target, without markup. -/
def linkSource : Text :=
  "See [a] & more".toList

theorem references_linkHistory :
    (after linkHistory).references = [("a".toList, "b".toList, some "c".toList)] := by
  decide +kernel

theorem render_after_linkHistory :
    (after linkHistory).references.Unmarked ∧ (after linkHistory).stash.count = 3 ∧
    (Parser.render ⟨(after linkHistory).references, Stash.empty⟩ linkSource).2.stash =
      Stash.empty ∧
    ((after linkHistory).render linkSource).1 =
      (Parser.render ⟨(after linkHistory).references, Stash.empty⟩ linkSource).1 := by
  have hr : (after linkHistory).references.Unmarked := by
    rw [references_linkHistory]
    exact List.forall_mem_singleton.mpr ⟨by decide, fun title ht => by cases ht; decide⟩
  have hquiet : (Parser.render ⟨(after linkHistory).references, Stash.empty⟩
      linkSource).2.stash = Stash.empty := by
    decide +kernel
  exact ⟨hr, by decide +kernel, hquiet, ((render_after linkHistory linkSource).2 hr).2 hquiet⟩

-- A link target that is the mark of a comment shows what was stored.
example :
    let history := [Request.convert "[foo]:\n  <!-- c -->".toList]
    ((after history).render "[x][foo]".toList).1 ≠
      ((numbered (after history).references 1).render "[x][foo]".toList).1 := by
  decide +kernel

/-- A heading that is a comment with a tag in a link in it. -/
def nestedTag : Text :=
  "## <!-- > [<b>](u) -->".toList

/-- The anchor of a heading resolves the mark of the comment, and shows the number of the mark that
the comment holds. -/
theorem render_nestedTag : ((after [.convert "<hr>".toList]).render nestedTag).1 ≠
    (Parser.render ⟨(after [.convert "<hr>".toList]).references, Stash.empty⟩ nestedTag).1 := by
  decide +kernel

end Parser

end Changelog
