import Turnstile.Time.Instant
/-!
# Windows

Time is cut into aligned windows of equal length, counted from the beginning of 1970. Requests of one
key within one window share a counter; the counter's name holds the second at which the window starts.
-/

namespace Turnstile.Rate

open Time

def defaultWindow : Duration := .ofSecs 60

/-- How much longer than its window a counter lives. -/
def ttlPadding : Duration := .ofSecs 1

/-- The second at which the window of an instant starts. A window shorter than a second cannot be
aligned and starts with the current second. -/
def windowStart (now : Instant) (window : Duration) : Int :=
  let length : Int := min window.secs Text.maxInt64
  if length = 0 then now.secs else now.secs.fdiv length * length

/-- The name of the counter of a key in the window of an instant. -/
def counterKey (stem key : String) (window : Duration) (now : Instant) : String :=
  stem ++ key ++ ":" ++ Text.intText (windowStart now window)

def counterTtl (window : Duration) : Duration := window.saturatingAdd ttlPadding

end Turnstile.Rate
