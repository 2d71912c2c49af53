import Changelog.Proofs.Decoration.Layout
import Changelog.Proofs.Document.Reading

/-!
# Default rendering is left intact

A parser may hand its tree to a processor before the tree is laid out and written.  With the
decoration as the processor it writes the tree that it writes without one, dressed: undoing the
decoration in what is written gives the default tree, and the stored markup is the same.
-/

namespace Changelog

open Element

/-! ### Trees without decoration -/

namespace Element

theorem keepsAttr_document (tag name : String) (h : name ∈ documentAttrs) :
    keepsAttr tag name = true := by
  have hclass : (name == "class") = false := by
    rw [beq_eq_false_iff_ne]
    intro hn
    rw [hn] at h
    revert h
    decide
  have hid : (name == "id") = false := by
    rw [beq_eq_false_iff_ne]
    intro hn
    rw [hn] at h
    revert h
    decide
  simp only [keepsAttr, hclass, hid, Bool.false_and, Bool.not_false, Bool.and_true]

theorem unbox_of_named {e : Tree} (h : Named e) : unbox e = e := by
  apply unbox_of_tag
  intro hd
  have hmem := h.label.1
  rw [hd] at hmem
  revert hmem
  decide

mutual

/-- Nothing is undone in a tree that is in the vocabulary of documents. -/
theorem undress_of_named : ∀ e : Tree, Named e → undress e = e
  | ⟨tag, attrs, text, tail, children⟩, h => by
    have hattrs : attrs.filter (fun a => keepsAttr tag a.1) = attrs := by
      rw [List.filter_eq_self]
      exact fun a ha => keepsAttr_document tag a.1 (h.label.2 a ha)
    rw [undress, hattrs, undressAll_of_named children h.children]

theorem undressAll_of_named : ∀ es : List Tree, (∀ e ∈ es, Named e) → undressAll es = es
  | [], _ => rfl
  | e :: es, h => by
    obtain ⟨hfirst, hothers⟩ := List.forall_mem_cons.mp h
    rw [undressAll, undress_of_named e hfirst, unbox_of_named hfirst,
      undressAll_of_named es hothers]

end

end Element

namespace Parser

/-! ### What a parser reads -/

theorem read_tag (parser : Parser) (source : Text) : (parser.read source).1.tag = "div" := by
  obtain ⟨text, tail, children, hread, -⟩ := read_named parser source
  rw [hread]

/-- There is nothing to undo in a tree as it is read. -/
theorem undress_read (parser : Parser) (source : Text) :
    undress (parser.read source).1 = (parser.read source).1 := by
  obtain ⟨text, tail, children, hread, hnamed⟩ := read_named parser source
  rw [hread, undress, undressAll_of_named children hnamed]
  rfl

/-! ### Processors -/

/-- What is done to a tree after it is read and before it is laid out. -/
abbrev Processor := Stash → Tree → Tree × Option DecorateError

/-- The processor of a parser without extensions. -/
def Processor.idle : Processor :=
  fun _ tree => (tree, none)

/-- What a parser hands to the writer: the tree in its final form, the stored markup, and the error
with which the processor broke off. -/
structure Handed where
  tree : Tree
  stash : Stash
  failure : Option DecorateError

/-- What a parser with a processor hands to the writer. -/
def handed (process : Processor) (parser : Parser) (source : Text) : Handed :=
  let (tree, after) := parser.read source
  let processed := process after.stash tree
  ⟨finalTree processed.1, after.stash, processed.2⟩

/-- The page that is written from a tree in its final form. -/
def Handed.written (h : Handed) : Text :=
  Text.trim (Restore.page h.stash (writeInside h.tree))

/-- A page is rendered by handing the decorated tree to the writer. -/
theorem render_eq_written (parser : Parser) (source : Text) (h : Text.isBlank source = false) :
    (parser.render source).1 =
      match (parser.handed decorate source).failure with
      | some e => .error e
      | none => .ok (parser.handed decorate source).written := by
  unfold render handed
  rw [h]
  cases parser.read source with
  | mk tree after =>
    dsimp only
    cases decorate after.stash tree with
    | mk decorated failure =>
      cases failure with
      | some e => rfl
      | none => rfl

/-- Undoing the decoration in the tree that is handed to the writer gives the tree that a parser
without extensions hands over, and the markup stored by the two is the same. -/
theorem undress_handed_decorate (parser : Parser) (source : Text) :
    undress (parser.handed decorate source).tree = (parser.handed Processor.idle source).tree ∧
      (parser.handed decorate source).stash = (parser.handed Processor.idle source).stash := by
  refine ⟨?_, rfl⟩
  have hread := undress_read parser source
  have htag := read_tag parser source
  unfold handed Processor.idle
  cases hr : parser.read source with
  | mk tree after =>
    rw [hr] at hread htag
    show undress (finalTree (decorate after.stash tree).1) = finalTree tree
    rw [undress_finalTree, undress_decorate after.stash tree htag, hread]

end Parser

end Changelog
