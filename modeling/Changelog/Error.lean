import Changelog.Style.Decorate
import Changelog.Text.Quoted

/-!
# The wording of failures
-/

namespace Changelog

def NumberError.kind : NumberError → String
  | .tooLarge => "OverflowError"
  | .notCodePoint => "ValueError"
  | .tooManyDigits _ => "ValueError"

def DecorateError.kind : DecorateError → String
  | .text cause => cause.kind
  | .level _ => "ValueError"
  | .shortTag => "IndexError"
  | .rootHeading => "KeyError"

/-- The text of a decoration failure; a root that is a heading has none. -/
def DecorateError.message : DecorateError → Option Text
  | .text cause => some cause.message
  | .level c => some ("invalid literal for int() with base 10: ".toList ++ Text.quoted [c])
  | .shortTag => some "string index out of range".toList
  | .rootHeading => none

end Changelog
