import Mathlib.Logic.Function.Basic
import Changelog.Proofs.Files.Lasting
import Changelog.Proofs.Publish.Calls

/-!
# Runs that share their files

Any number of runs make their calls in any order on the same files, and may stop anywhere.  Each
of them works on a temporary file of its own, so every target holds what it held at first or a whole
fragment, and the last fragment that was moved to it is the one that stays.
-/

namespace Changelog

open FileSystem

/-- The place that a path leads to, if it leads to one. -/
def FileSystem.place? (fs : FileSystem) (path : Text) : Option Place :=
  (fs.resolve path).toOption

/-- The files of several runs, how far each run is, and the calls that ended so far. -/
structure Shared (ι : Type) where
  files : FileSystem
  progress : ι → Progress
  calls : List (ι × Call × Reply)

/-- What may happen to shared files next. -/
inductive Event (ι : Type)
  /-- A run makes its next call. -/
  | call (run : ι) (around : Surroundings)
  /-- The temporary file that a run is writing holds the given bytes for now. -/
  | torn (run : ι) (bytes : List UInt8)

/-- The runs that moved their fragment to the target, in the order of the moves. -/
def replacers {ι : Type} (calls : List (ι × Call × Reply)) : List ι :=
  calls.filterMap fun call =>
    match call.2 with
    | (.replace, .done) => some call.1
    | _ => none

namespace Shared

variable {ι : Type}

def initial (fs : FileSystem) : Shared ι :=
  ⟨fs, fun _ => .begun, []⟩

/-- The runs that replaced what a run's target leads to, the last one last. -/
def writers (jobs : ι → Job) (s : Shared ι) (i : ι) : List ι :=
  (replacers s.calls).filter fun j =>
    s.files.place? (jobs j).target = s.files.place? (jobs i).target

variable [DecidableEq ι]

/-- A call of a run, and what it leaves. -/
def turn (s : Shared ι) (i : ι) (files : FileSystem) (progress : Progress)
    (calls : List (Call × Reply)) : Shared ι :=
  ⟨files, Function.update s.progress i progress, s.calls ++ calls.map fun call => (i, call)⟩

def take (jobs : ι → Job) (s : Shared ι) : Event ι → Shared ι
  | .call i around =>
    let next := (jobs i).step around (s.files, s.progress i)
    s.turn i next.1 next.2 ((jobs i).made around (s.files, s.progress i))
  | .torn i bytes =>
    match s.progress i with
    | .created temporary =>
      match s.files.fill temporary.place bytes with
      | .ok files => { s with files := files }
      | .error _ => s
    | _ => s

/-- What some events leave, one after the other. -/
def after (jobs : ι → Job) (fs : FileSystem) (events : List (Event ι)) : Shared ι :=
  events.foldl (take jobs) (initial fs)

end Shared

/-- What holds at every moment of runs that began with the files `fs`. -/
structure Whole {ι : Type} (jobs : ι → Job) (fs : FileSystem) (s : Shared ι) : Prop where
  /-- A target is what it was, or a whole fragment that was meant for it. -/
  whole : ∀ i, s.files.node? (jobs i).target = fs.node? (jobs i).target ∨
    ∃ j ∈ replacers s.calls,
      s.files.place? (jobs j).target = s.files.place? (jobs i).target ∧
      s.files.node? (jobs i).target =
        some (.file Job.pageMode (Utf8.encode (jobs j).fragment))
  /-- The last fragment moved to a target is what it holds. -/
  last : ∀ i, s.files.node? (jobs i).target =
    match (s.writers jobs i).getLast? with
    | none => fs.node? (jobs i).target
    | some j => some (.file Job.pageMode (Utf8.encode (jobs j).fragment))
  /-- Once all runs that began are over, nothing is left of them but the fragments that were moved
  and the temporary files that could not be removed. -/
  left : (∀ i, s.progress i = .begun ∨ ∃ outcome, s.progress i = .ended outcome) → ∀ place,
    s.files.get? place ≠ fs.get? place →
    (∃ j ∈ replacers s.calls, s.files.place? (jobs j).target = some place) ∨
    ∃ i temporary cause, (i, .create, .created temporary) ∈ s.calls ∧
      (i, .discard, .failed cause) ∈ s.calls ∧ temporary.place = place

/-- What is assumed of the names under which a run's temporary file is tried: they hold no slash,
and no target is looked up under them. -/
structure Fresh {ι : Type} (jobs : ι → Job) (fs : FileSystem) (i : ι) (around : Surroundings) :
    Prop where
  plain : ∀ name ∈ around.names, '/' ∉ name
  apart : ∀ name ∈ around.names, ∀ parent, fs.resolve ((jobs i).directory fs) = .ok parent →
    ∀ j, fs.locate (jobs j).target ≠ .ok (parent, some (Job.temporaryName name))

/-- Where a file is put that is moved to a path. -/
def goal? (fs : FileSystem) (path : Text) : Option Place :=
  match fs.locate path with
  | .ok (parent, some name) => some (parent ++ [name])
  | _ => none

/-- What is at a place by the moves made so far. -/
def held {ι : Type} (jobs : ι → Job) (fs : FileSystem) (calls : List (ι × Call × Reply))
    (place : Place) : Option Node :=
  match ((replacers calls).filter fun j => goal? fs (jobs j).target = some place).getLast? with
  | none => fs.get? place
  | some j => some (.file Job.pageMode (Utf8.encode (jobs j).fragment))

/-- What a temporary file holds at each point of its run. -/
def Job.Prepared (job : Job) : Progress → Node → Prop
  | .filled _, node => ∃ mode, node = .file mode (Utf8.encode job.fragment)
  | .permitted _, node => node = .file pageMode (Utf8.encode job.fragment)
  | _, node => ∃ mode content, node = .file mode content

theorem Job.Prepared.file {job : Job} {progress : Progress} {node : Node}
    (h : job.Prepared progress node) : ∃ mode content, node = .file mode content := by
  cases progress with
  | filled t =>
    obtain ⟨mode, rfl⟩ := h
    exact ⟨mode, _, rfl⟩
  | permitted t => exact ⟨_, _, h⟩
  | begun => exact h
  | created t => exact h
  | failing t cause => exact h
  | ended outcome => exact h

/-- What every call keeps: the directories are the same, each run that is not over has a temporary
file of its own, and every other place is as the moves made so far left it. -/
structure Kept {ι : Type} (jobs : ι → Job) (fs : FileSystem) (s : Shared ι) : Prop where
  aligned : fs.Aligned s.files
  made : ∀ i t, (i, .create, .created t) ∈ s.calls →
    fs.get? t.place = none ∧ ∀ j, goal? fs (jobs j).target ≠ some t.place
  owned : ∀ i t, (s.progress i).temporary? = some t → (i, .create, .created t) ∈ s.calls ∧
    ∃ node, s.files.get? t.place = some node ∧ (jobs i).Prepared (s.progress i) node
  distinct : ∀ i j t u, (s.progress i).temporary? = some t →
    (s.progress j).temporary? = some u → i ≠ j → t.place ≠ u.place
  moved : ∀ j ∈ replacers s.calls, ∃ parent name,
    fs.locate (jobs j).target = .ok (parent, some name) ∧
    exceeds nameLimit name = false ∧ Path.endsWithSlash (jobs j).target = false
  places : ∀ place,
    (∃ i t, (s.progress i).temporary? = some t ∧ t.place = place) ∨
    (∃ i t cause, (i, .create, .created t) ∈ s.calls ∧
      (i, .discard, .failed cause) ∈ s.calls ∧ t.place = place) ∨
    s.files.get? place = held jobs fs s.calls place

/-! ### Calls and moves -/

section

variable {ι : Type} {jobs : ι → Job} {fs : FileSystem} {calls : List (ι × Call × Reply)}

theorem replacers_append (calls more : List (ι × Call × Reply)) :
    replacers (calls ++ more) = replacers calls ++ replacers more :=
  List.filterMap_append

theorem replacers_concat (i : ι) (call : Call × Reply) (h : call ≠ (.replace, .done)) :
    replacers (calls ++ [(i, call)]) = replacers calls := by
  have hnone : replacers [(i, call)] = [] := by
    unfold replacers
    rw [List.filterMap_cons]
    split
    · rfl
    · next hs =>
      split at hs
      · next hc => exact absurd hc h
      · cases hs
  rw [replacers_append, hnone, List.append_nil]

theorem replacers_concat_done (i : ι) :
    replacers (calls ++ [(i, .replace, .done)]) = replacers calls ++ [i] :=
  replacers_append calls _

theorem held_concat (i : ι) (call : Call × Reply) (h : call ≠ (.replace, .done)) (place : Place) :
    held jobs fs (calls ++ [(i, call)]) place = held jobs fs calls place := by
  unfold held
  rw [replacers_concat i call h]

theorem held_concat_done (i : ι) (place : Place) :
    held jobs fs (calls ++ [(i, .replace, .done)]) place =
      if goal? fs (jobs i).target = some place then
        some (.file Job.pageMode (Utf8.encode (jobs i).fragment))
      else held jobs fs calls place := by
  unfold held
  rw [replacers_concat_done, List.filter_append]
  by_cases hg : goal? fs (jobs i).target = some place
  · simp [hg]
  · simp [hg]

/-- A place that no run aims at is as it was. -/
theorem held_of_ne {place : Place} (h : ∀ j, goal? fs (jobs j).target ≠ some place) :
    held jobs fs calls place = fs.get? place := by
  have hnone : ((replacers calls).filter fun j => goal? fs (jobs j).target = some place) = [] := by
    rw [List.filter_eq_nil_iff]
    intro j _
    simpa using h j
  unfold held
  rw [hnone]
  rfl

theorem goal?_eq_some {path : Text} {place : Place} (h : goal? fs path = some place) :
    ∃ parent name, fs.locate path = .ok (parent, some name) ∧ place = parent ++ [name] := by
  unfold goal? at h
  split at h
  · next parent name hl =>
    cases h
    exact ⟨parent, name, hl, rfl⟩
  · cases h

theorem goal?_of_locate {path name : Text} {parent : Place}
    (h : fs.locate path = .ok (parent, some name)) : goal? fs path = some (parent ++ [name]) := by
  unfold goal?
  rw [h]

end

/-! ### What calls keep -/

namespace Kept

variable {ι : Type} {jobs : ι → Job} {fs : FileSystem} {s : Shared ι}

theorem not_isDirectory (h : Kept jobs fs s) {i : ι} {t : Temporary}
    (ht : (i, .create, .created t) ∈ s.calls) : s.files.isDirectory t.place = false := by
  rw [h.aligned.directory]
  exact isDirectory_eq_false (h.made i t ht).1 nofun

theorem held_eq_none (h : Kept jobs fs s) {i : ι} {t : Temporary}
    (ht : (i, .create, .created t) ∈ s.calls) : held jobs fs s.calls t.place = none := by
  obtain ⟨hnew, hapart⟩ := h.made i t ht
  rw [held_of_ne hapart, hnew]

/-- A place under which no temporary file was made is as the moves left it. -/
theorem get?_eq (h : Kept jobs fs s) (place : Place)
    (hp : ∀ i t, (i, .create, .created t) ∈ s.calls → t.place ≠ place) :
    s.files.get? place = held jobs fs s.calls place := by
  rcases h.places place with ⟨i, t, ht, he⟩ | ⟨i, t, cause, ht, -, he⟩ | he
  · exact absurd he (hp i t (h.owned i t ht).1)
  · exact absurd he (hp i t ht)
  · exact he

/-- What was there at first is not taken away. -/
theorem get?_ne_none (h : Kept jobs fs s) {place : Place} (hp : fs.get? place ≠ none) :
    s.files.get? place ≠ none := by
  have hheld := h.get?_eq place fun i t ht he => hp (he ▸ (h.made i t ht).1)
  rw [hheld]
  unfold held
  split
  · exact hp
  · exact nofun

theorem initial (jobs : ι → Job) (fs : FileSystem) : Kept jobs fs (Shared.initial fs) where
  aligned := Aligned.refl fs
  made := nofun
  owned := nofun
  distinct := nofun
  moved := nofun
  places := fun _ => Or.inr (Or.inr rfl)

/-- A run changes what its own temporary file holds. -/
theorem rewrite (h : Kept jobs fs s) {i : ι} {t : Temporary} {mode : Nat} {content : List UInt8}
    {now : FileSystem} (ht : (s.progress i).temporary? = some t)
    (hb : s.files.Becomes t.place (some (.file mode content)) now)
    (hprepared : (jobs i).Prepared (s.progress i) (.file mode content)) :
    Kept jobs fs { s with files := now } where
  aligned := h.aligned.trans (hb.aligned (h.not_isDirectory (h.owned i t ht).1) (by simp))
  made := h.made
  owned := by
    intro j u hu
    obtain ⟨hmade, node, hnode, hp⟩ := h.owned j u hu
    by_cases hj : j = i
    · subst hj
      cases ht.symm.trans hu
      exact ⟨hmade, _, hb.there, hprepared⟩
    · have hne : u.place ≠ t.place := h.distinct j i u t hu ht hj
      exact ⟨hmade, node, (hb.apart _ hne).trans hnode, hp⟩
  distinct := h.distinct
  moved := h.moved
  places := by
    intro place
    by_cases hp : place = t.place
    · exact Or.inl ⟨i, t, ht, hp.symm⟩
    · rcases h.places place with hactive | hleft | hheld
      · exact Or.inl hactive
      · exact Or.inr (Or.inl hleft)
      · exact Or.inr (Or.inr ((hb.apart place hp).trans hheld))

end Kept

/-- What a call of a run may do: it ends with the files `now` and leads to the progress `next`. -/
structure Tame {ι : Type} (jobs : ι → Job) (fs : FileSystem) (s : Shared ι) (i : ι)
    (now : FileSystem) (next : Progress) (call : Call × Reply) : Prop where
  aligned : s.files.Aligned now
  others : ∀ j u, j ≠ i → (s.progress j).temporary? = some u →
    now.get? u.place = s.files.get? u.place
  made : ∀ t, call = (.create, .created t) →
    fs.get? t.place = none ∧ ∀ j, goal? fs (jobs j).target ≠ some t.place
  moved : call = (.replace, .done) → ∃ parent name,
    fs.locate (jobs i).target = .ok (parent, some name) ∧
    exceeds nameLimit name = false ∧ Path.endsWithSlash (jobs i).target = false
  owned : ∀ t, next.temporary? = some t →
    (i, .create, .created t) ∈ s.calls ++ [(i, call)] ∧
    (∃ node, now.get? t.place = some node ∧ (jobs i).Prepared next node) ∧
    ∀ j u, j ≠ i → (s.progress j).temporary? = some u → t.place ≠ u.place
  given : ∀ t, (s.progress i).temporary? = some t → next.temporary? = some t ∨
    (∃ cause, call = (.discard, .failed cause)) ∨
    now.get? t.place = held jobs fs (s.calls ++ [(i, call)]) t.place
  rest : ∀ place, s.files.get? place = held jobs fs s.calls place →
    (∃ t, next.temporary? = some t ∧ t.place = place) ∨
    now.get? place = held jobs fs (s.calls ++ [(i, call)]) place

section

variable {ι : Type} {jobs : ι → Job} {fs now : FileSystem} {s : Shared ι} {i : ι}
  {t : Temporary} {next : Progress} {call : Call × Reply}

theorem mem_concat_of_mem {c : ι × Call × Reply} (h : c ∈ s.calls) :
    c ∈ s.calls ++ [(i, call)] :=
  List.mem_append_left _ h

theorem Kept.turn [DecidableEq ι] (h : Kept jobs fs s) (hc : Tame jobs fs s i now next call) :
    Kept jobs fs (s.turn i now next [call]) where
  aligned := h.aligned.trans hc.aligned
  made := by
    intro j u hu
    rcases List.mem_append.mp hu with hu | hu
    · exact h.made j u hu
    · cases List.mem_singleton.mp hu
      exact hc.made u rfl
  owned := by
    intro j u hu
    by_cases hj : j = i
    · subst hj
      simp only [Shared.turn, Function.update_self] at hu ⊢
      obtain ⟨hmade, hnode, -⟩ := hc.owned u hu
      exact ⟨hmade, hnode⟩
    · simp only [Shared.turn, Function.update_of_ne hj] at hu ⊢
      obtain ⟨hmade, node, hnode, hp⟩ := h.owned j u hu
      exact ⟨mem_concat_of_mem hmade, node, (hc.others j u hj hu).trans hnode, hp⟩
  distinct := by
    intro j k u v hu hv hne
    by_cases hj : j = i
    · have hk : k ≠ i := fun hk => hne (hj.trans hk.symm)
      simp only [Shared.turn, hj, Function.update_self, Function.update_of_ne hk] at hu hv
      exact (hc.owned u hu).2.2 k v hk hv
    · simp only [Shared.turn, Function.update_of_ne hj] at hu
      by_cases hk : k = i
      · simp only [Shared.turn, hk, Function.update_self] at hv
        exact ((hc.owned v hv).2.2 j u hj hu).symm
      · simp only [Shared.turn, Function.update_of_ne hk] at hv
        exact h.distinct j k u v hu hv hne
  moved := by
    intro j hj
    by_cases hcall : call = (.replace, .done)
    · subst hcall
      have hmem : j ∈ replacers s.calls ++ [i] := by
        rw [← replacers_concat_done]
        exact hj
      rcases List.mem_append.mp hmem with hold | hnew
      · exact h.moved j hold
      · cases List.mem_singleton.mp hnew
        exact hc.moved rfl
    · have hold : j ∈ replacers s.calls := by
        rw [← replacers_concat i call hcall]
        exact hj
      exact h.moved j hold
  places := by
    intro place
    have hactive : ∀ t, next.temporary? = some t → t.place = place →
        ∃ j u, ((s.turn i now next [call]).progress j).temporary? = some u ∧ u.place = place := by
      intro t ht he
      exact ⟨i, t, by simpa [Shared.turn] using ht, he⟩
    -- Only the temporary file of the run itself can have gone, or be left behind, by the call.
    rcases h.places place with ⟨j, u, hu, rfl⟩ | ⟨j, u, cause, hmade, hleft, he⟩ | hheld
    · by_cases hj : j = i
      · subst hj
        rcases hc.given u hu with hnext | ⟨cause, rfl⟩ | hgone
        · exact Or.inl (hactive u hnext rfl)
        · exact Or.inr (Or.inl ⟨j, u, cause, mem_concat_of_mem (h.owned j u hu).1,
            List.mem_append_right _ (List.mem_singleton.mpr rfl), rfl⟩)
        · exact Or.inr (Or.inr hgone)
      · exact Or.inl ⟨j, u, by simpa [Shared.turn, Function.update_of_ne hj] using hu, rfl⟩
    · exact Or.inr (Or.inl ⟨j, u, cause, mem_concat_of_mem hmade, mem_concat_of_mem hleft, he⟩)
    · rcases hc.rest place hheld with ⟨t, ht, he⟩ | hnow
      · exact Or.inl (hactive t ht he)
      · exact Or.inr (Or.inr hnow)

/-- A call that leaves the files alone: the run goes on with its temporary file, or it ends, and its
temporary file stays only when it could not be removed. -/
theorem Kept.tame_same (h : Kept jobs fs s)
    (hnext : next.temporary? = (s.progress i).temporary? ∨ next.temporary? = none ∧
      ((s.progress i).temporary? = none ∨ ∃ cause, call = (.discard, .failed cause)))
    (hprepared : ∀ t node, (s.progress i).temporary? = some t → s.files.get? t.place = some node →
      (jobs i).Prepared (s.progress i) node → (jobs i).Prepared next node)
    (hcall : call ≠ (.replace, .done)) (hcreate : ∀ u, call ≠ (.create, .created u)) :
    Tame jobs fs s i s.files next call where
  aligned := Aligned.refl _
  others := fun _ _ _ _ => rfl
  made := fun t ht => absurd ht (hcreate t)
  moved := fun hm => absurd hm hcall
  owned := by
    intro t ht
    rcases hnext with hsame | ⟨hnone, -⟩
    · rw [hsame] at ht
      obtain ⟨hmade, node, hnode, hp⟩ := h.owned i t ht
      exact ⟨mem_concat_of_mem hmade, ⟨node, hnode, hprepared t node ht hnode hp⟩,
        fun j u hj hu => h.distinct i j t u ht hu hj.symm⟩
    · rw [hnone] at ht
      cases ht
  given := by
    intro t ht
    rcases hnext with hsame | ⟨-, hnone | hleft⟩
    · exact Or.inl (hsame.trans ht)
    · rw [hnone] at ht
      cases ht
    · exact Or.inr (Or.inl hleft)
  rest := fun place hp => Or.inr (hp.trans (held_concat i call hcall place).symm)

theorem Kept.tame_create (h : Kept jobs fs s) (hnone : (s.progress i).temporary? = none)
    (hfree : s.files.get? t.place = none) (hapart : ∀ j, goal? fs (jobs j).target ≠ some t.place)
    (hb : s.files.Becomes t.place (some (.file 0o600 [])) now) :
    Tame jobs fs s i now (.created t) (.create, .created t) where
  aligned := hb.aligned (isDirectory_eq_false hfree nofun) (by simp)
  others := by
    intro j u _ hu
    obtain ⟨-, node, hnode, -⟩ := h.owned j u hu
    apply hb.apart
    intro he
    rw [he, hfree] at hnode
    cases hnode
  made := by
    intro u hu
    cases hu
    refine ⟨?_, hapart⟩
    by_contra hp
    exact h.get?_ne_none hp hfree
  moved := nofun
  owned := by
    intro u hu
    cases hu
    refine ⟨List.mem_append_right _ (List.mem_singleton.mpr rfl), ⟨_, hb.there, _, _, rfl⟩, ?_⟩
    intro j u _ hu he
    obtain ⟨-, node, hnode, -⟩ := h.owned j u hu
    rw [← he, hfree] at hnode
    cases hnode
  given := by
    intro u hu
    rw [hnone] at hu
    cases hu
  rest := by
    intro place hp
    by_cases he : place = t.place
    · exact Or.inl ⟨t, rfl, he.symm⟩
    · have hheld := hp.trans (held_concat i (.create, .created t) nofun place).symm
      exact Or.inr ((hb.apart place he).trans hheld)

theorem Kept.tame_discard (h : Kept jobs fs s) (ht : (s.progress i).temporary? = some t)
    (hnext : next.temporary? = none) (hb : s.files.Becomes t.place none now) :
    Tame jobs fs s i now next (.discard, .done) where
  aligned := hb.aligned (h.not_isDirectory (h.owned i t ht).1) nofun
  others := fun j u hj hu => hb.apart _ (h.distinct j i u t hu ht hj)
  made := nofun
  moved := nofun
  owned := by
    intro u hu
    rw [hnext] at hu
    cases hu
  given := by
    intro u hu
    cases ht.symm.trans hu
    rw [held_concat i (.discard, .done) nofun, h.held_eq_none (h.owned i t ht).1]
    exact Or.inr (Or.inr hb.there)
  rest := by
    intro place hp
    rw [held_concat i (.discard, .done) nofun]
    by_cases he : place = t.place
    · rw [he, h.held_eq_none (h.owned i t ht).1]
      exact Or.inr hb.there
    · exact Or.inr ((hb.apart place he).trans hp)

theorem Kept.tame_replace (h : Kept jobs fs s) (ht : s.progress i = .permitted t)
    (hnext : next.temporary? = none) (hm : s.files.move t.place (jobs i).target = .ok now) :
    Tame jobs fs s i now next (.replace, .done) := by
  have htemporary : (s.progress i).temporary? = some t := by
    rw [ht]
    rfl
  obtain ⟨hmade, node, hnode, hprepared⟩ := h.owned i t htemporary
  rw [ht] at hprepared
  obtain rfl : node = .file Job.pageMode (Utf8.encode (jobs i).fragment) := hprepared
  obtain ⟨parent, name, moved, hl, hname, hslash, hdir, hmoved, rfl⟩ := move_found hm
  cases hnode.symm.trans hmoved
  have hlocate := h.aligned.symm.locate hl
  have hgoal : goal? fs (jobs i).target = some (parent ++ [name]) := goal?_of_locate hlocate
  have hgone := becomes_erase s.files t.place (ne_nil_of_get? hnode (by simp))
  have hput := becomes_put (s.files.erase t.place) (parent ++ [name])
    (.file Job.pageMode (Utf8.encode (jobs i).fragment))
    (List.append_ne_nil_of_right_ne_nil parent (by simp))
  have hapart : ∀ j u, (j, .create, .created u) ∈ s.calls → u.place ≠ parent ++ [name] := by
    intro j u hu he
    exact (h.made j u hu).2 i (he ▸ hgoal)
  -- The move takes the file away from its place and then puts it to the goal.
  have hmid : s.files.Aligned (s.files.erase t.place) :=
    hgone.aligned (h.not_isDirectory hmade) nofun
  refine ⟨?_, ?_, nofun, fun _ => ⟨parent, name, hlocate, hname, hslash⟩, ?_, ?_, ?_⟩
  · exact hmid.trans (hput.aligned ((hmid.directory _).trans hdir) (by simp))
  · intro j u hj hu
    rw [hput.apart _ (hapart j u (h.owned j u hu).1)]
    exact hgone.apart _ (h.distinct j i u t hu htemporary hj)
  · intro u hu
    rw [hnext] at hu
    cases hu
  · intro u hu
    cases htemporary.symm.trans hu
    have hne : goal? fs (jobs i).target ≠ some t.place := (h.made i t hmade).2 i
    rw [held_concat_done, if_neg hne, h.held_eq_none hmade, hput.apart _ (hapart i t hmade)]
    exact Or.inr (Or.inr hgone.there)
  · intro place hp
    rw [held_concat_done, hgoal]
    by_cases he : parent ++ [name] = place
    · rw [if_pos (congrArg some he), ← he]
      exact Or.inr hput.there
    · rw [if_neg (fun hs => he (Option.some.inj hs)), hput.apart _ (Ne.symm he)]
      by_cases hplace : place = t.place
      · rw [hplace, h.held_eq_none hmade]
        exact Or.inr hgone.there
      · exact Or.inr ((hgone.apart _ hplace).trans hp)

/-! ### Sequences of calls -/

variable [DecidableEq ι] {around : Surroundings}

theorem take_call (s : Shared ι) (c : Call) (hc : (s.progress i).call? = some c) :
    s.take jobs (.call i around) =
      s.turn i ((jobs i).answer around (s.files, s.progress i) c).1
        ((s.progress i).after ((jobs i).answer around (s.files, s.progress i) c).2)
        [(c, ((jobs i).answer around (s.files, s.progress i) c).2)] := by
  have hstep := (jobs i).step_eq around (s.files, s.progress i) c hc
  have hmade := (jobs i).made_eq around (s.files, s.progress i) c hc
  simp only [Shared.take, hstep, hmade]

theorem Kept.begun (h : Kept jobs fs s) (hfresh : Fresh jobs fs i around)
    (hp : s.progress i = .begun) : Kept jobs fs (s.take jobs (.call i around)) := by
  rw [take_call s .create (by rw [hp]; rfl), hp]
  rcases Job.answer_create (jobs i) s.files hfresh.plain with
    ⟨cause, ha⟩ | ⟨name, hname, parent, t, now, ha, hresolve, hparent, hplace, hfree, hb⟩
  · rw [ha]
    refine h.turn (h.tame_same (Or.inr ⟨rfl, Or.inl (by rw [hp]; rfl)⟩) ?_ nofun nofun)
    intro t node ht
    rw [hp] at ht
    cases ht
  · rw [ha]
    refine h.turn (h.tame_create (by rw [hp]; rfl) hfree ?_ hb)
    have hdirectory : (jobs i).directory s.files = (jobs i).directory fs := by
      unfold Job.directory Job.workingPath
      rw [h.aligned.working]
    have hthere : fs.get? parent ≠ none := by
      rw [get?_of_isDirectory ((h.aligned.directory parent).symm.trans hparent)]
      exact nofun
    have hfirst := h.aligned.symm.resolve hresolve hthere
    rw [hdirectory] at hfirst
    intro j hj
    obtain ⟨parent', name', hl, he⟩ := goal?_eq_some hj
    rw [hplace] at he
    obtain ⟨rfl, hlast⟩ := List.append_inj' he rfl
    cases hlast
    exact hfresh.apart name hname parent hfirst j hl

/-- A call on the temporary file that fails. -/
theorem Kept.failed (h : Kept jobs fs s) (ht : (s.progress i).temporary? = some t)
    (c : Call) (cause : Failure) :
    Kept jobs fs (s.turn i s.files (.failing t cause) [(c, .failed cause)]) :=
  h.turn (h.tame_same (Or.inl ht.symm) (fun _ _ _ _ hprepared => hprepared.file) nofun nofun)

theorem Kept.created (h : Kept jobs fs s) (hp : s.progress i = .created t) :
    Kept jobs fs (s.take jobs (.call i around)) := by
  have ht : (s.progress i).temporary? = some t := by rw [hp]; rfl
  rw [take_call s .write (by rw [hp]; rfl), hp]
  rcases Job.answer_created (jobs i) around s.files t with
    ⟨cause, ha⟩ | ⟨now, ha, mode, old, -, hb⟩
  · rw [ha]
    exact h.failed ht _ cause
  · rw [ha]
    have hnow := h.rewrite ht hb (by rw [hp]; exact ⟨_, _, rfl⟩)
    refine hnow.turn (hnow.tame_same (Or.inl ht.symm) ?_ nofun nofun)
    intro u node hu hnode _
    cases ht.symm.trans hu
    exact ⟨mode, Option.some.inj (hnode.symm.trans hb.there)⟩

theorem Kept.filled (h : Kept jobs fs s) (hp : s.progress i = .filled t) :
    Kept jobs fs (s.take jobs (.call i around)) := by
  have ht : (s.progress i).temporary? = some t := by rw [hp]; rfl
  rw [take_call s .permit (by rw [hp]; rfl), hp]
  rcases Job.answer_filled (jobs i) around s.files t with
    ⟨cause, ha⟩ | ⟨now, ha, old, content, hold, hb⟩
  · rw [ha]
    exact h.failed ht _ cause
  · rw [ha]
    obtain ⟨-, node, hnode, hprepared⟩ := h.owned i t ht
    rw [hp] at hprepared
    obtain ⟨mode, rfl⟩ := hprepared
    cases hold.symm.trans hnode
    have hnow := h.rewrite ht hb (by rw [hp]; exact ⟨_, rfl⟩)
    refine hnow.turn (hnow.tame_same (Or.inl ht.symm) ?_ nofun nofun)
    intro u node hu hnode _
    cases ht.symm.trans hu
    exact Option.some.inj (hnode.symm.trans hb.there)

theorem Kept.permitted (h : Kept jobs fs s) (hp : s.progress i = .permitted t) :
    Kept jobs fs (s.take jobs (.call i around)) := by
  have ht : (s.progress i).temporary? = some t := by rw [hp]; rfl
  rw [take_call s .replace (by rw [hp]; rfl), hp]
  rcases Job.answer_permitted (jobs i) around s.files t with ⟨cause, ha⟩ | ⟨now, ha, hm⟩
  · rw [ha]
    exact h.failed ht _ cause
  · rw [ha]
    exact h.turn (h.tame_replace hp rfl hm)

theorem Kept.failing (h : Kept jobs fs s) {cause : Failure} (hp : s.progress i = .failing t cause) :
    Kept jobs fs (s.take jobs (.call i around)) := by
  have ht : (s.progress i).temporary? = some t := by rw [hp]; rfl
  rw [take_call s .discard (by rw [hp]; rfl), hp]
  rcases Job.answer_failing (jobs i) around s.files t cause with ⟨cause', ha⟩ | ⟨now, ha, hb⟩
  · rw [ha]
    refine h.turn (h.tame_same (Or.inr ⟨rfl, Or.inr ⟨cause', rfl⟩⟩) ?_ nofun nofun)
    exact fun _ _ _ _ hprepared => hprepared.file
  · rw [ha]
    exact h.turn (h.tame_discard ht rfl hb)

/-- One more event keeps it all. -/
theorem Kept.take (h : Kept jobs fs s) (event : Event ι)
    (hfresh : ∀ i around, event = .call i around → Fresh jobs fs i around) :
    Kept jobs fs (s.take jobs event) := by
  cases event with
  | call i around =>
    cases hp : s.progress i with
    | begun => exact h.begun (hfresh i around rfl) hp
    | created t => exact h.created hp
    | filled t => exact h.filled hp
    | permitted t => exact h.permitted hp
    | failing t cause => exact h.failing hp
    | ended outcome =>
      have hstep : (jobs i).step around (s.files, s.progress i) = (s.files, s.progress i) := by
        rw [hp]
        rfl
      have hmade : (jobs i).made around (s.files, s.progress i) = [] := by
        rw [hp]
        rfl
      simp only [Shared.take, hstep, hmade, Shared.turn, Function.update_eq_self, List.map_nil,
        List.append_nil]
      exact h
  | torn i bytes =>
    simp only [Shared.take]
    split
    · next t hp =>
      have ht : (s.progress i).temporary? = some t := by rw [hp]; rfl
      split
      · next now hfill =>
        obtain ⟨mode, old, -, hb⟩ := fill_ok hfill
        exact h.rewrite ht hb (by rw [hp]; exact ⟨_, _, rfl⟩)
      · exact h
    · exact h

theorem kept_after (events : List (Event ι))
    (hfresh : ∀ i around, .call i around ∈ events → Fresh jobs fs i around) :
    Kept jobs fs (Shared.after jobs fs events) := by
  have hfrom : ∀ (events : List (Event ι)) (s : Shared ι), Kept jobs fs s →
      (∀ i around, .call i around ∈ events → Fresh jobs fs i around) →
      Kept jobs fs (events.foldl (Shared.take jobs) s) := by
    intro events
    induction events with
    | nil => exact fun s h _ => h
    | cons event events ih =>
      intro s h hfresh
      refine ih _ (h.take event ?_) fun i around hm => hfresh i around (List.mem_cons_of_mem _ hm)
      rintro i around rfl
      exact hfresh i around List.mem_cons_self
  exact hfrom events _ (Kept.initial jobs fs) hfresh

end

/-! ### What targets hold -/

namespace Kept

variable {ι : Type} {jobs : ι → Job} {fs : FileSystem} {s : Shared ι}

/-- A target that was replaced leads to the place that it was looked up at. -/
theorem place?_moved (h : Kept jobs fs s) {j : ι} (hj : j ∈ replacers s.calls) :
    ∃ place, goal? fs (jobs j).target = some place ∧
      s.files.place? (jobs j).target = some place := by
  obtain ⟨parent, name, hl, hname, hslash⟩ := h.moved j hj
  have hgoal := goal?_of_locate hl
  have hheld := h.get?_eq (parent ++ [name]) fun i t ht he =>
    (h.made i t ht).2 j (he ▸ hgoal)
  obtain ⟨node, hnode⟩ : ∃ node, s.files.get? (parent ++ [name]) = some node := by
    rw [hheld]
    unfold held
    split
    · next hnone =>
      have hm : j ∈ (replacers s.calls).filter fun j =>
          goal? fs (jobs j).target = some (parent ++ [name]) := by
        simp [hj, hgoal]
      rw [List.getLast?_eq_none_iff.mp hnone] at hm
      cases hm
    · exact ⟨_, rfl⟩
  have hresolve := resolve_of_locate hl hname hslash h.aligned.working
    (fun p hp => (h.aligned.directory p).trans hp) hnode
  refine ⟨_, hgoal, ?_⟩
  rw [place?, hresolve]
  rfl

/-- No target leads to a temporary file. -/
theorem place?_ne (h : Kept jobs fs s) (htree : fs.IsTree) {i k : ι} {t : Temporary}
    (ht : (k, .create, .created t) ∈ s.calls) :
    s.files.resolve (jobs i).target ≠ .ok t.place := by
  intro hr
  have hdir := h.not_isDirectory ht
  obtain ⟨parent, name, hl, hplace⟩ := (htree.aligned h.aligned).locate_of_resolve hr hdir
  have hgoal := goal?_of_locate (h.aligned.symm.locate hl)
  exact (h.made k t ht).2 i (hplace ▸ hgoal)

/-- What a target led to at first it leads to still. -/
theorem resolve_of_first (h : Kept jobs fs s) (htree : fs.IsTree) {path : Text} {place : Place}
    (hr : fs.resolve path = .ok place) : s.files.resolve path = .ok place :=
  h.aligned.resolve hr (h.get?_ne_none (htree.get?_resolve hr))

theorem node?_first (h : Kept jobs fs s) (htree : fs.IsTree) {path : Text} {place : Place}
    (hr : s.files.resolve path = .ok place) : fs.node? path = fs.get? place := by
  cases hfirst : fs.resolve path with
  | ok first =>
    have hsame := (h.resolve_of_first htree hfirst).symm.trans hr
    cases hsame
    rw [node?, hfirst]
  | error refusal =>
    have hnone : fs.get? place = none := by
      by_contra hp
      have hok := h.aligned.symm.resolve hr hp
      rw [hfirst] at hok
      cases hok
    rw [node?, hfirst, hnone]

/-- The runs that replaced what a target leads to are those that moved a file to its place. -/
theorem writers_eq (h : Kept jobs fs s) {i : ι} {place : Place}
    (hr : s.files.resolve (jobs i).target = .ok place) :
    s.writers jobs i =
      (replacers s.calls).filter fun j => goal? fs (jobs j).target = some place := by
  unfold Shared.writers
  apply List.filter_congr
  intro j hj
  obtain ⟨goal, hgoal, hplace⟩ := h.place?_moved hj
  rw [hplace, hgoal, place?, hr]
  rfl

theorem writers_eq_nil (h : Kept jobs fs s) {i : ι} {refusal : Refusal}
    (hr : s.files.resolve (jobs i).target = .error refusal) : s.writers jobs i = [] := by
  unfold Shared.writers
  rw [List.filter_eq_nil_iff]
  intro j hj
  obtain ⟨goal, -, hplace⟩ := h.place?_moved hj
  rw [hplace, place?, hr]
  simp [Except.toOption]

/-- A target holds the fragment that was moved to it last. -/
theorem node?_target (h : Kept jobs fs s) (htree : fs.IsTree) (i : ι) :
    s.files.node? (jobs i).target =
      match (s.writers jobs i).getLast? with
      | none => fs.node? (jobs i).target
      | some j => some (.file Job.pageMode (Utf8.encode (jobs j).fragment)) := by
  cases hr : s.files.resolve (jobs i).target with
  | error refusal =>
    have hfirst : fs.node? (jobs i).target = none := by
      unfold node?
      split
      · next place hfirst =>
        rw [h.resolve_of_first htree hfirst] at hr
        cases hr
      · rfl
    rw [h.writers_eq_nil hr, node?, hr]
    exact hfirst.symm
  | ok place =>
    have hplace := h.get?_eq place fun k t ht he =>
      h.place?_ne htree ht (he ▸ hr)
    rw [h.writers_eq hr, h.node?_first htree hr, node?, hr]
    exact hplace

theorem whole (h : Kept jobs fs s) (htree : fs.IsTree) : Whole jobs fs s where
  whole := by
    intro i
    have hnode := h.node?_target htree i
    cases hlast : (s.writers jobs i).getLast? with
    | none =>
      rw [hlast] at hnode
      exact Or.inl hnode
    | some j =>
      rw [hlast] at hnode
      obtain ⟨hj, hplace⟩ := List.mem_filter.mp (List.mem_of_getLast? hlast)
      exact Or.inr ⟨j, hj, of_decide_eq_true hplace, hnode⟩
  last := h.node?_target htree
  left := by
    intro hover place hplace
    rcases h.places place with ⟨i, t, ht, -⟩ | ⟨i, t, cause, hmade, hleft, he⟩ | hheld
    · rcases hover i with hp | ⟨outcome, hp⟩
      · rw [hp] at ht
        cases ht
      · rw [hp] at ht
        cases ht
    · exact Or.inr ⟨i, t, cause, hmade, hleft, he⟩
    · rw [hheld] at hplace
      unfold held at hplace
      split at hplace
      · exact absurd rfl hplace
      · next j hlast =>
        obtain ⟨hj, hgoal⟩ := List.mem_filter.mp (List.mem_of_getLast? hlast)
        obtain ⟨goal, hgoal', hnow⟩ := h.place?_moved hj
        cases (of_decide_eq_true hgoal).symm.trans hgoal'
        exact Or.inl ⟨j, hj, hnow⟩

end Kept

/-- Whatever runs share their files, in whatever order they make their calls, whatever fails, and
wherever they stop: every target holds what it held at first, or the whole fragment of the last run
that replaced it. -/
theorem whole_after {ι : Type} [DecidableEq ι] (jobs : ι → Job) (fs : FileSystem)
    (events : List (Event ι)) (htree : fs.IsTree)
    (hfresh : ∀ i around, .call i around ∈ events → Fresh jobs fs i around) :
    Whole jobs fs (Shared.after jobs fs events) :=
  (kept_after events hfresh).whole htree

/-- A page in the root, which three runs are about to replace; one of them names it differently. -/
def sharedPage : FileSystem :=
  ⟨[], [(["page.html".toList], .file 0o600 [])]⟩

def sharingJobs : Fin 3 → Job
  | 0 => ⟨"page.html".toList, "né".toList⟩
  | 1 => ⟨"page.html".toList, "two".toList⟩
  | 2 => ⟨"./page.html".toList, "three".toList⟩

/-- The next call of a run, which may fail from without. -/
def sharingCall (run : Fin 3 × Option Call) : Event (Fin 3) :=
  .call run.1 ⟨fun call => if run.2 = some call then some (.runtime []) else none,
    ["k".toList, "l".toList]⟩

/-- Two runs replace the page one after the other; the third can neither write nor remove its
temporary file. -/
def sharingEvents : List (Event (Fin 3)) :=
  [(0, none), (1, none), (0, none)].map sharingCall ++ .torn 1 [0xff] ::
    [(1, none), (0, none), (1, none), (1, none), (0, none), (2, none), (2, some .write),
      (2, some .discard)].map sharingCall

theorem whole_after_threeRuns :
    sharedPage.IsTree ∧
      (∀ i around, .call i around ∈ sharingEvents → Fresh sharingJobs sharedPage i around) ∧
      (Shared.after sharingJobs sharedPage sharingEvents).files.node? "page.html".toList =
        some (.file 0o644 [0x6e, 0xc3, 0xa9]) ∧
      Whole sharingJobs sharedPage (Shared.after sharingJobs sharedPage sharingEvents) := by
  have htree : sharedPage.IsTree := by
    intro place hp
    by_cases hn : place = []
    · rw [hn]
      rfl
    · have hfile : sharedPage.get? place ≠ some .directory := by
        simp only [get?, if_neg hn, sharedPage, List.lookup_cons, List.lookup_nil]
        split
        · decide
        · decide
      exact absurd (get?_of_isDirectory hp) hfile
  have hfresh : ∀ i around, .call i around ∈ sharingEvents →
      Fresh sharingJobs sharedPage i around := by
    intro i around hm
    have hnames : around.names = ["k".toList, "l".toList] := by
      simp only [sharingEvents, List.mem_append, List.mem_cons, List.mem_map] at hm
      rcases hm with ⟨run, -, he⟩ | he | ⟨run, -, he⟩
      · cases he
        rfl
      · cases he
      · cases he
        rfl
    have hplace : ∀ j, sharedPage.locate (sharingJobs j).target =
        .ok ([], some "page.html".toList) :=
      Fin.cases rfl (Fin.cases rfl (Fin.cases rfl fun j => j.elim0))
    refine ⟨?_, ?_⟩
    · rw [hnames]
      decide
    · intro name _ parent _ j hj
      cases (hplace j).symm.trans hj
  exact ⟨htree, hfresh, by decide, whole_after sharingJobs sharedPage sharingEvents htree hfresh⟩

end Changelog
