import Turnstile.Text.Blank
/-!
# Route scopes

A scope is a list of patterns. A pattern is a path, or the beginning of paths followed by a star; a
star alone stands for all paths. Blanks around a pattern do not count, and a blank pattern is none.
-/

namespace Turnstile

def patternMatches (pattern path : List Char) : Bool :=
  match pattern.reverse with
  | [] => false
  | '*' :: stem => stem.reverse.isPrefixOf path
  | _ => path == pattern

/-- Whether one of the patterns stands for the path. The empty path is in no scope. -/
def isPathAllowed (path : String) (patterns : List String) : Bool :=
  !path.isEmpty && patterns.any fun p => patternMatches (Text.trimChars p.toList) path.toList

end Turnstile
