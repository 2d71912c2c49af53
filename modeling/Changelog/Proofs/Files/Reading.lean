import Changelog.Proofs.Files.Lasting

/-!
# What is read

Files that are the same at all places are read alike.  A file that appears or changes at one place
is not seen on paths that lead elsewhere.
-/

namespace Changelog

/-- The same files and directories at all places, and the same working directory. -/
structure FileSystem.Same (fs now : FileSystem) : Prop where
  working : now.working = fs.working
  get? : ∀ place, now.get? place = fs.get? place

namespace FileSystem

variable {fs mid now : FileSystem} {path : Text} {goal place : Place}

theorem Same.refl (fs : FileSystem) : fs.Same fs :=
  ⟨rfl, fun _ => rfl⟩

theorem Same.trans (h : fs.Same mid) (h' : mid.Same now) : fs.Same now :=
  ⟨h'.working.trans h.working, fun place => (h'.get? place).trans (h.get? place)⟩

theorem Same.resolve (h : fs.Same now) (path : Text) : now.resolve path = fs.resolve path := by
  have hwalk : now.walk (now.start path) (Path.names path) =
      fs.walk (fs.start path) (Path.names path) := by
    rw [start_eq h.working, walk_congr h.get?]
  have hdirectory : now.isDirectory = fs.isDirectory :=
    funext fun place => isDirectory_eq (h.get? place)
  unfold FileSystem.resolve
  rw [hwalk, hdirectory]

theorem Same.read (h : fs.Same now) (path : Text) : now.read path = fs.read path := by
  have hget : now.get? = fs.get? := funext h.get?
  unfold FileSystem.read
  rw [h.resolve, hget]

/-- What is read is a file at a place. -/
theorem read_ok {content : List UInt8} (h : fs.read path = .ok content) :
    ∃ place mode, fs.resolve path = .ok place ∧
      fs.get? place = some (.file mode content) := by
  unfold FileSystem.read at h
  obtain ⟨place, hr, h⟩ := bind_ok h
  split at h
  · next mode bytes hget =>
    cases h
    exact ⟨place, mode, hr, hget⟩
  · cases h
  · cases h

theorem read_of_get? {mode : Nat} {content : List UInt8} (hr : fs.resolve path = .ok place)
    (hg : fs.get? place = some (.file mode content)) : fs.read path = .ok content := by
  unfold FileSystem.read
  rw [hr]
  dsimp only [bind, Except.bind]
  rw [hg]

/-- A file that appears or changes elsewhere does not change what is read. -/
theorem Becomes.read {node : Node} {content : List UInt8}
    (h : fs.Becomes goal (some node) now) (hbefore : fs.isDirectory goal = false)
    (hnode : node ≠ .directory) (hread : fs.read path = .ok content)
    (happart : fs.resolve path ≠ .ok goal) : now.read path = .ok content := by
  obtain ⟨place, mode, hr, hg⟩ := read_ok hread
  have hne : place ≠ goal := by
    rintro rfl
    exact happart hr
  have hnow : now.get? place = some (.file mode content) := (h.apart place hne).trans hg
  have haligned : fs.Aligned now := h.aligned hbefore fun he => hnode (Option.some.inj he)
  exact read_of_get? (haligned.resolve hr (by rw [hnow]; exact nofun)) hnow

end FileSystem

end Changelog
