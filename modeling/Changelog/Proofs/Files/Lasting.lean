import Changelog.Proofs.Files.Operations

/-!
# What lasts while directories last

Files come and go, but as long as the directories and the working directory are the same, a path
leads to a place wherever there is something at that place.
-/

namespace Changelog.FileSystem

/-- Files with the same directories. -/
structure Aligned (fs now : FileSystem) : Prop where
  working : now.working = fs.working
  directory : ∀ place, now.isDirectory place = fs.isDirectory place

/-- Every directory lies in a directory. -/
def IsTree (fs : FileSystem) : Prop :=
  ∀ place, fs.isDirectory place = true → fs.isDirectory place.dropLast = true

variable {fs mid now : FileSystem} {place goal parent : Place} {path name : Text}

theorem Aligned.refl (fs : FileSystem) : fs.Aligned fs :=
  ⟨rfl, fun _ => rfl⟩

theorem Aligned.symm (h : fs.Aligned now) : now.Aligned fs :=
  ⟨h.working.symm, fun place => (h.directory place).symm⟩

theorem Aligned.trans (h : fs.Aligned mid) (h' : mid.Aligned now) : fs.Aligned now :=
  ⟨h'.working.trans h.working, fun place => (h'.directory place).trans (h.directory place)⟩

theorem isDirectory_eq_false {node : Option Node} (h : fs.get? place = node)
    (hn : node ≠ some .directory) : fs.isDirectory place = false := by
  rw [isDirectory, h]
  exact beq_eq_false_iff_ne.mpr hn

theorem get?_of_isDirectory (h : fs.isDirectory place = true) :
    fs.get? place = some .directory :=
  eq_of_beq h

/-- A change of one place that is no directory, before or after, leaves the directories alone. -/
theorem Becomes.aligned {node : Option Node} (h : fs.Becomes place node now)
    (hbefore : fs.isDirectory place = false) (hafter : node ≠ some .directory) :
    fs.Aligned now := by
  refine ⟨h.working, fun other => ?_⟩
  by_cases ho : other = place
  · rw [ho, hbefore, isDirectory_eq_false h.there hafter]
  · exact isDirectory_eq (h.apart other ho)

theorem Aligned.start (h : fs.Aligned now) (path : Text) : now.start path = fs.start path :=
  start_eq h.working path

/-! ### Walks -/

/-- A walk ends where it did if there is something. -/
theorem Aligned.walk (h : fs.Aligned now) (names : List Text) (place : Place)
    (hw : fs.walk place names = .ok goal) (hg : now.get? goal ≠ none) :
    now.walk place names = .ok goal := by
  induction names generalizing place with
  | nil => exact hw
  | cons name names ih =>
    unfold FileSystem.walk at hw ⊢
    rw [h.directory place]
    split at hw
    · cases hw
    next hd =>
    rw [if_neg hd]
    split at hw
    · next hh =>
      rw [if_pos hh]
      exact ih place hw
    next hh =>
    rw [if_neg hh]
    split at hw
    · next ha =>
      rw [if_pos ha]
      exact ih place.dropLast hw
    next ha =>
    rw [if_neg ha]
    split at hw
    · cases hw
    next hl =>
    rw [if_neg hl]
    split at hw
    · cases hw
    -- What has the name is the goal, or a directory on the way to it.
    have hsome : now.get? (place ++ [name]) ≠ none := by
      cases names with
      | nil =>
        cases hw
        exact hg
      | cons next names =>
        have hnext : fs.isDirectory (place ++ [name]) = true := by
          unfold FileSystem.walk at hw
          split at hw
          · cases hw
          · next hd => simpa using hd
        rw [get?_of_isDirectory ((h.directory _).trans hnext)]
        exact Option.some_ne_none _
    rw [if_neg (by simpa using hsome)]
    exact ih (place ++ [name]) hw

theorem Aligned.resolve (h : fs.Aligned now) (hr : fs.resolve path = .ok goal)
    (hg : now.get? goal ≠ none) : now.resolve path = .ok goal := by
  unfold FileSystem.resolve at hr ⊢
  obtain ⟨⟨⟩, haccept, hr⟩ := bind_ok hr
  obtain ⟨found, hwalk, hr⟩ := bind_ok hr
  split at hr
  · cases hr
  next hs =>
  cases hr
  have hnow := h.walk _ _ hwalk hg
  rw [haccept, h.start]
  show (now.walk (fs.start path) (Path.names path) >>= fun place => _) = _
  rw [hnow]
  show (if Path.endsWithSlash path && !now.isDirectory goal then
    Except.error Refusal.notDirectory else Except.ok goal) = _
  rw [h.directory, if_neg hs]

/-- The converse of `locate_ok`. -/
theorem locate_of_walk (haccept : acceptPath path = .ok ())
    (hwalk : fs.walk (fs.start path) (Path.names path).dropLast = .ok parent)
    (hparent : fs.isDirectory parent = true) (hlast : (Path.names path).getLast? = some name)
    (hhere : name ≠ Path.here) (habove : name ≠ Path.above) :
    fs.locate path = .ok (parent, some name) := by
  unfold FileSystem.locate
  rw [haccept]
  show (fs.walk (fs.start path) (Path.names path).dropLast >>= fun parent => _) = _
  rw [hwalk]
  show (if (!fs.isDirectory parent) = true then Except.error Refusal.notDirectory else _) = _
  rw [hparent, hlast]
  simp [hhere, habove]

theorem Aligned.locate (h : fs.Aligned now) (hl : fs.locate path = .ok (parent, some name)) :
    now.locate path = .ok (parent, some name) := by
  obtain ⟨haccept, hwalk, hparent, hlast, hhere, habove⟩ := locate_ok hl
  have hd : ∀ place, fs.isDirectory place = true → now.isDirectory place = true :=
    fun place hp => (h.directory place).trans hp
  refine locate_of_walk haccept ?_ (hd parent hparent) hlast hhere habove
  rw [h.start]
  exact walk_mono hd _ _ _ hwalk hparent

/-! ### Trees -/

theorem IsTree.aligned (hfs : fs.IsTree) (h : fs.Aligned now) : now.IsTree := by
  intro place hp
  rw [h.directory] at hp ⊢
  exact hfs place hp

/-- A walk from a place where there is something ends at such a place. -/
theorem IsTree.get?_walk (hfs : fs.IsTree) (names : List Text) (place : Place)
    (hp : fs.get? place ≠ none) (hw : fs.walk place names = .ok goal) :
    fs.get? goal ≠ none := by
  induction names generalizing place with
  | nil =>
    cases hw
    exact hp
  | cons name names ih =>
    unfold FileSystem.walk at hw
    split at hw
    · cases hw
    next hd =>
    split at hw
    · exact ih place hp hw
    split at hw
    · have hdrop : fs.isDirectory place.dropLast = true := hfs place (by simpa using hd)
      refine ih place.dropLast ?_ hw
      rw [get?_of_isDirectory hdrop]
      exact Option.some_ne_none _
    split at hw
    · cases hw
    split at hw
    · cases hw
    next hs => exact ih (place ++ [name]) (by simpa using hs) hw

/-- A path that does not begin at the root names something. -/
theorem names_ne_nil (h : path ≠ []) (hr : Path.isRooted path = false) : Path.names path ≠ [] := by
  cases path with
  | nil => exact absurd rfl h
  | cons c cs =>
    have hc : c ≠ '/' := by
      intro he
      rw [he] at hr
      cases hr
    unfold Path.names Text.splitChar
    rw [if_neg hc]
    split
    · simp
    · simp

theorem ne_nil_of_acceptPath (h : acceptPath path = .ok ()) : path ≠ [] := by
  intro he
  rw [he] at h
  cases h

/-- A walk along a path begins in a directory, or it is no walk. -/
theorem isDirectory_start (ha : acceptPath path = .ok ())
    (hw : fs.walk (fs.start path) (Path.names path) = .ok goal) :
    fs.isDirectory (fs.start path) = true := by
  cases hr : Path.isRooted path with
  | true =>
    rw [start, hr]
    simp [isDirectory, get?_nil]
  | false =>
    obtain ⟨name, names, hn⟩ := List.exists_cons_of_ne_nil
      (names_ne_nil (ne_nil_of_acceptPath ha) hr)
    rw [hn, FileSystem.walk] at hw
    split at hw
    · cases hw
    · next hd => simpa using hd

theorem resolve_ok (h : fs.resolve path = .ok goal) :
    acceptPath path = .ok () ∧ fs.walk (fs.start path) (Path.names path) = .ok goal := by
  unfold FileSystem.resolve at h
  obtain ⟨⟨⟩, haccept, h⟩ := bind_ok h
  obtain ⟨found, hwalk, h⟩ := bind_ok h
  split at h
  · cases h
  · cases h
    exact ⟨haccept, hwalk⟩

theorem IsTree.get?_resolve (hfs : fs.IsTree) (h : fs.resolve path = .ok goal) :
    fs.get? goal ≠ none := by
  obtain ⟨haccept, hwalk⟩ := resolve_ok h
  refine hfs.get?_walk _ _ ?_ hwalk
  rw [get?_of_isDirectory (isDirectory_start haccept hwalk)]
  exact nofun

/-- What a path leads to is a directory, or it is looked up under the last name of the path. -/
theorem IsTree.locate_of_resolve (hfs : fs.IsTree) (h : fs.resolve path = .ok goal)
    (hg : fs.isDirectory goal = false) :
    ∃ parent name, fs.locate path = .ok (parent, some name) ∧ goal = parent ++ [name] := by
  obtain ⟨haccept, hwalk⟩ := resolve_ok h
  rcases List.eq_nil_or_concat (Path.names path) with hn | ⟨front, last, hn⟩
  · have hstart := isDirectory_start haccept hwalk
    rw [hn] at hwalk
    cases hwalk
    rw [hstart] at hg
    cases hg
  rw [List.concat_eq_append] at hn
  rw [hn, walk_append] at hwalk
  cases hf : fs.walk (fs.start path) front with
  | error refusal =>
    rw [hf] at hwalk
    cases hwalk
  | ok parent =>
    rw [hf] at hwalk
    have hlast : fs.walk parent [last] = .ok goal := hwalk
    simp only [FileSystem.walk] at hlast
    split at hlast
    · cases hlast
    next hd =>
    have hparent : fs.isDirectory parent = true := by simpa using hd
    split at hlast
    · cases hlast
      rw [hparent] at hg
      cases hg
    next hh =>
    split at hlast
    · cases hlast
      rw [hfs parent hparent] at hg
      cases hg
    next ha =>
    split at hlast
    · cases hlast
    split at hlast
    · cases hlast
    cases hlast
    refine ⟨parent, last, locate_of_walk haccept ?_ hparent ?_ hh ha, rfl⟩
    · rw [hn, List.dropLast_concat, hf]
    · rw [hn, List.getLast?_concat]

end Changelog.FileSystem
