import Changelog.Files.Path
import Changelog.Proofs.Text.Cuts

/-!
# The names of paths

A path that is put in a directory has the names of the directory, and its own name after them.
-/

namespace Changelog.Path

theorem names_append (cs ds : Text) : names (cs ++ '/' :: ds) = names cs ++ names ds := by
  simp only [names, Text.splitChar_append, List.filter_append]

theorem names_plain (name : Text) (h : '/' ∉ name) (hn : name ≠ []) : names name = [name] := by
  rw [names, Text.splitChar_plain '/' name h, List.filter_cons_of_pos (by simpa using hn)]
  rfl

theorem append_of_endsWithSlash (path : Text) (h : endsWithSlash path = true) :
    ∃ front, path = front ++ ['/'] := by
  have hl : Text.last? path = some '/' := eq_of_beq h
  exact List.getLast?_eq_some_iff.mp hl

/-- A name in a directory comes after the names of the directory. -/
theorem names_inside (directory name : Text) (h : '/' ∉ name) (hn : name ≠ []) :
    names (inside directory name) = names directory ++ [name] := by
  unfold inside
  split
  · next hs =>
    obtain ⟨front, rfl⟩ := append_of_endsWithSlash directory hs
    rw [List.append_assoc, List.singleton_append, names_append, names_append,
      names_plain name h hn]
    show names front ++ [name] = names front ++ [] ++ [name]
    rw [List.append_nil]
  · rw [names_append, names_plain name h hn]

theorem isRooted_ofNames (working path : Text) (ns : List Text) :
    isRooted (ofNames (rootOf (placed working path)) ns) = true := by
  have hroot : ∃ rest, rootOf (placed working path) = '/' :: rest := by
    unfold rootOf
    split
    · exact ⟨[], rfl⟩
    · exact ⟨['/'], rfl⟩
    · exact ⟨[], rfl⟩
  obtain ⟨rest, hrest⟩ := hroot
  rw [ofNames, hrest]
  rfl

end Changelog.Path
