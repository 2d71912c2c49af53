import Changelog.Proofs.Files.Reading
import Changelog.Publish.Make

/-!
# The bytes of a source

A source is loaded as bytes first, which are the bytes of the file that its path leads to.
-/

namespace Changelog

open FileSystem

/-- The bytes of a source. -/
def loadSource (fs : FileSystem) (source : Text) : Except Failure (List UInt8) :=
  if source.contains '\x00' then .error .nulInPath
  else (fs.read source).mapError fun refusal => .system (refusal.about [source])

variable {fs now : FileSystem} {source text : Text} {bytes : List UInt8}

theorem readSource_eq_bind (fs : FileSystem) (source : Text) :
    readSource fs source = loadSource fs source >>= decodeSource := by
  unfold readSource loadSource
  split
  · rfl
  · cases fs.read source with
    | error refusal => rfl
    | ok bytes => rfl

theorem readSource_of_load (h : loadSource fs source = .ok bytes) :
    readSource fs source = decodeSource bytes := by
  rw [readSource_eq_bind, h]
  rfl

theorem readSource_ok (h : readSource fs source = .ok text) :
    ∃ bytes, loadSource fs source = .ok bytes ∧ decodeSource bytes = .ok text := by
  rw [readSource_eq_bind] at h
  cases hload : loadSource fs source with
  | error cause =>
    rw [hload] at h
    cases h
  | ok bytes =>
    rw [hload] at h
    exact ⟨bytes, rfl, h⟩

theorem loadSource_eq_ok : loadSource fs source = .ok bytes ↔
    source.contains '\x00' = false ∧ fs.read source = .ok bytes := by
  unfold loadSource
  cases source.contains '\x00' with
  | true => simp
  | false =>
    rw [if_neg Bool.false_ne_true]
    cases fs.read source with
    | error refusal => exact ⟨nofun, fun h => nomatch h.2⟩
    | ok content =>
      exact ⟨fun h => ⟨rfl, congrArg Except.ok (Except.ok.inj h)⟩,
        fun h => congrArg Except.ok (Except.ok.inj h.2)⟩

theorem loadSource_same (h : fs.Same now) (source : Text) :
    loadSource now source = loadSource fs source := by
  unfold loadSource
  rw [h.read]

theorem readSource_same (h : fs.Same now) (source : Text) :
    readSource now source = readSource fs source := by
  rw [readSource_eq_bind, loadSource_same h, readSource_eq_bind]

end Changelog
