import Changelog.Files.FileSystem
import Changelog.Proofs.Files.Names

/-!
# Following paths

A path is followed through directories, so what it leads to does not change when files appear,
change or vanish at places that the path does not name.
-/

namespace Changelog.FileSystem

/-- What a path leads to, if it leads to anything. -/
def node? (fs : FileSystem) (path : Text) : Option Node :=
  match fs.resolve path with
  | .ok place => fs.get? place
  | .error _ => none

/-- Files that hold something else at one place, or nothing, and are the same elsewhere. -/
structure Becomes (fs : FileSystem) (place : Place) (node : Option Node) (now : FileSystem) :
    Prop where
  working : now.working = fs.working
  there : now.get? place = node
  apart : ∀ other, other ≠ place → now.get? other = fs.get? other

variable {fs mid now : FileSystem} {place other : Place} {node node' : Option Node}

theorem Becomes.trans (h : fs.Becomes place node mid) (h' : mid.Becomes place node' now) :
    fs.Becomes place node' now := by
  refine ⟨h'.working.trans h.working, h'.there, ?_⟩
  intro other ho
  rw [h'.apart other ho, h.apart other ho]

/-- What vanished from a place where nothing was leaves the files as they were. -/
theorem Becomes.get?_eq (h : fs.Becomes place none now) (hn : fs.get? place = none)
    (other : Place) : now.get? other = fs.get? other := by
  by_cases ho : other = place
  · rw [ho, h.there, hn]
  · exact h.apart other ho

theorem becomes_put (fs : FileSystem) (place : Place) (node : Node) (h : place ≠ []) :
    fs.Becomes place (some node) (fs.put place node) :=
  ⟨rfl, get?_put_self fs place node h, fun other ho => get?_put_ne fs place other node ho⟩

theorem lookup_filter_self (entries : List (Place × Node)) (place : Place) :
    (entries.filter fun entry => entry.1 != place).lookup place = none := by
  induction entries with
  | nil => rfl
  | cons entry entries ih =>
    obtain ⟨key, node⟩ := entry
    by_cases hp : key = place
    · rw [List.filter_cons_of_neg (by simpa using hp), ih]
    · have hk : (place == key) = false := by simpa using Ne.symm hp
      rw [List.filter_cons_of_pos (by simpa using hp), List.lookup_cons, hk]
      exact ih

theorem becomes_erase (fs : FileSystem) (place : Place) (h : place ≠ []) :
    fs.Becomes place none (fs.erase place) := by
  refine ⟨rfl, ?_, fun other ho => get?_erase_ne fs place other ho⟩
  rw [get?, if_neg h]
  exact lookup_filter_self fs.entries place

theorem ne_nil_of_get? {node : Option Node} (h : fs.get? place = node)
    (hn : node ≠ some .directory) : place ≠ [] := by
  intro hp
  rw [hp, get?_nil] at h
  exact hn h.symm

/-! ### Places on the way -/

theorem walk_append (fs : FileSystem) (place : Place) (names more : List Text) :
    fs.walk place (names ++ more) = (fs.walk place names).bind fun p => fs.walk p more := by
  induction names generalizing place with
  | nil => rfl
  | cons name names ih =>
    simp only [List.cons_append, walk]
    split
    · rfl
    split
    · exact ih place
    split
    · exact ih place.dropLast
    split
    · rfl
    split
    · rfl
    · exact ih (place ++ [name])

/-- A walk that ends in a directory begins in one. -/
theorem isDirectory_of_walk (names : List Text) (place goal : Place)
    (h : fs.walk place names = .ok goal) (hg : fs.isDirectory goal = true) :
    fs.isDirectory place = true := by
  cases names with
  | nil =>
    cases h
    exact hg
  | cons name names =>
    cases hd : fs.isDirectory place with
    | true => rfl
    | false =>
      rw [walk, hd] at h
      cases h

/-- A walk to a directory is possible wherever the same directories are. -/
theorem walk_mono (hd : ∀ place, fs.isDirectory place = true → now.isDirectory place = true)
    (names : List Text) (place goal : Place) (h : fs.walk place names = .ok goal)
    (hg : fs.isDirectory goal = true) : now.walk place names = .ok goal := by
  induction names generalizing place with
  | nil => exact h
  | cons name names ih =>
    have hplace := isDirectory_of_walk (name :: names) place goal h hg
    unfold walk at h ⊢
    rw [hplace] at h
    rw [hd place hplace]
    simp only [Bool.not_true, Bool.false_eq_true, if_false] at h ⊢
    split at h
    · next hh =>
      rw [if_pos hh]
      exact ih place h
    split at h
    · next hh ha =>
      rw [if_neg hh, if_pos ha]
      exact ih place.dropLast h
    split at h
    · cases h
    split at h
    · cases h
    · next hh ha hl hs =>
      have hnext := isDirectory_of_walk names (place ++ [name]) goal h hg
      have hnow : now.get? (place ++ [name]) = some .directory := eq_of_beq (hd _ hnext)
      rw [if_neg hh, if_neg ha, if_neg hl, hnow]
      exact ih (place ++ [name]) h

/-- Whether a file appeared does not show on a walk that does not end with its name. -/
theorem walk_becomes {mode : Nat} {content : List UInt8}
    (h : fs.Becomes place (some (.file mode content)) now) (hn : fs.get? place = none)
    (names : List Text) (start : Place) (hl : names.getLast? ≠ place.getLast?) :
    (now.walk start names).toOption = (fs.walk start names).toOption := by
  have hnil : place ≠ [] := ne_nil_of_get? hn (by simp)
  have hdir (p : Place) : now.isDirectory p = fs.isDirectory p := by
    by_cases hp : p = place
    · rw [isDirectory, isDirectory, hp, h.there, hn]
      rfl
    · rw [isDirectory, isDirectory, h.apart p hp]
  induction names generalizing start with
  | nil => rfl
  | cons name names ih =>
    have hrest : names.getLast? ≠ place.getLast? := by
      cases names with
      | nil =>
        intro he
        exact hnil (List.getLast?_eq_none_iff.mp he.symm)
      | cons n ns =>
        rw [List.getLast?_cons_cons] at hl
        exact hl
    simp only [walk, hdir start]
    split
    · rfl
    split
    · exact ih start hrest
    split
    · exact ih start.dropLast hrest
    split
    · rfl
    by_cases hp : start ++ [name] = place
    · -- The place of the file is on the way, so the walk goes on and fails on both sides.
      rw [hp, h.there, hn]
      cases names with
      | nil =>
        rw [← hp, List.getLast?_append, List.getLast?_singleton] at hl
        exact absurd rfl hl
      | cons n ns =>
        have hfile : now.isDirectory place = false := by
          rw [isDirectory, h.there]
          rfl
        simp only [Option.isNone_some, Option.isNone_none, Bool.false_eq_true, if_false, if_true,
          walk, hfile, Bool.not_false]
        rfl
    · rw [h.apart _ hp]
      split
      · rfl
      · exact ih (start ++ [name]) hrest

/-- A walk from elsewhere does not end where nothing is. -/
theorem walk_ne (hn : fs.get? place = none) (names : List Text) (start : Place)
    (hs : ¬ place <+: start) : fs.walk start names ≠ .ok place := by
  induction names generalizing start with
  | nil =>
    intro h
    cases h
    exact hs List.prefix_rfl
  | cons name names ih =>
    unfold walk
    split
    · exact nofun
    split
    · exact ih start hs
    split
    · exact ih start.dropLast fun hp => hs (hp.trans (List.dropLast_prefix start))
    split
    · exact nofun
    split
    · exact nofun
    · next hsome =>
      apply ih
      intro hp
      rcases List.prefix_concat_iff.mp hp with hp | hp
      · rw [← hp, hn] at hsome
        exact hsome rfl
      · exact hs hp

/-! ### What paths lead to -/

theorem start_eq (h : now.working = fs.working) (path : Text) : now.start path = fs.start path := by
  rw [start, start, h]

theorem isDirectory_eq {p : Place} (h : now.get? p = fs.get? p) :
    now.isDirectory p = fs.isDirectory p := by
  rw [isDirectory, isDirectory, h]

/-- A walk depends only on what is at places. -/
theorem walk_congr (h : ∀ p, now.get? p = fs.get? p) (names : List Text) (start : Place) :
    now.walk start names = fs.walk start names := by
  induction names generalizing start with
  | nil => rfl
  | cons name names ih =>
    rw [walk, walk, isDirectory_eq (h start), h (start ++ [name]), ih, ih, ih]

/-- What a path leads to is found by a walk, and must be a directory after a last slash. -/
theorem node?_eq (fs : FileSystem) (path : Text) :
    fs.node? path =
      match acceptPath path, (fs.walk (fs.start path) (Path.names path)).toOption with
      | .ok _, some goal =>
        if Path.endsWithSlash path && !fs.isDirectory goal then none else fs.get? goal
      | _, _ => none := by
  unfold node? resolve
  cases acceptPath path with
  | error refusal => rfl
  | ok _ =>
    cases fs.walk (fs.start path) (Path.names path) with
    | error refusal => rfl
    | ok goal =>
      show (match (if Path.endsWithSlash path && !fs.isDirectory goal then
          Except.error Refusal.notDirectory else Except.ok goal) with
        | .ok place => fs.get? place
        | .error _ => none) =
        if Path.endsWithSlash path && !fs.isDirectory goal then none else fs.get? goal
      cases Path.endsWithSlash path && !fs.isDirectory goal with
      | true => rfl
      | false => rfl

theorem node?_congr (hw : now.working = fs.working) (h : ∀ p, now.get? p = fs.get? p)
    (path : Text) : now.node? path = fs.node? path := by
  rw [node?_eq, node?_eq, start_eq hw, walk_congr h]
  cases acceptPath path with
  | error refusal => rfl
  | ok _ =>
    cases (fs.walk (fs.start path) (Path.names path)).toOption with
    | none => rfl
    | some goal =>
      dsimp only
      rw [isDirectory_eq (h goal), h goal]

/-- A file that appears under another name is not what a path leads to. -/
theorem node?_appears {mode : Nat} {content : List UInt8}
    (h : fs.Becomes place (some (.file mode content)) now) (hn : fs.get? place = none)
    (hw : ¬ place <+: fs.working) (path : Text)
    (hl : (Path.names path).getLast? ≠ place.getLast?) : now.node? path = fs.node? path := by
  have hstart : ¬ place <+: fs.start path := by
    unfold start
    split
    · intro hp
      exact ne_nil_of_get? hn (by simp) (List.prefix_nil.mp hp)
    · exact hw
  have hne := walk_ne hn (Path.names path) (fs.start path) hstart
  rw [node?_eq, node?_eq, start_eq h.working, walk_becomes h hn _ _ hl]
  cases acceptPath path with
  | error refusal => rfl
  | ok _ =>
    cases hf : fs.walk (fs.start path) (Path.names path) with
    | error refusal => rfl
    | ok goal =>
      have hgoal : goal ≠ place := by
        intro he
        rw [hf, he] at hne
        exact hne rfl
      show (if Path.endsWithSlash path && !now.isDirectory goal then none else now.get? goal) =
        if Path.endsWithSlash path && !fs.isDirectory goal then none else fs.get? goal
      rw [isDirectory_eq (h.apart goal hgoal), h.apart goal hgoal]

end Changelog.FileSystem
